import JobApplyAgent.Forms.PlanStore

/-!
# Stored plans decode to themselves

Every row decodes to the plan that it was written for, and a plan that is not invalidated
is the last one that its application got.
-/

namespace JobApplyAgent.Forms

open Domain Library

/-! ## Rows under invalidation -/

namespace FormPlanRow

variable {row : FormPlanRow}

theorem Holds.invalidate (hholds : row.Holds plan) :
    (row.invalidate now reason).Holds plan :=
  hholds

/-- What the row holds is a plan that its validators accept. -/
def Sound (policy : PlanPolicy) (row : FormPlanRow) (plan : FormPlanV1) : Prop :=
  row.Holds plan ∧ plan.accepted policy = true ∧ isCanonicalUuid plan.contract.planId = true

end FormPlanRow

/-- An earlier plan of the same application is not live. -/
def OnlyLastLive : List FormPlanRow → Prop :=
  List.Pairwise fun earlier later =>
    earlier.applicationId = later.applicationId → earlier.isLive = false

theorem onlyLastLive_map {change : FormPlanRow → FormPlanRow}
    (hlast : OnlyLastLive rows)
    (hsame : ∀ row, (change row).applicationId = row.applicationId)
    (hdead : ∀ row, row.isLive = false → (change row).isLive = false) :
    OnlyLastLive (rows.map change) := by
  apply List.pairwise_map.mpr
  apply hlast.imp
  intro earlier later hinvalidated happlication
  rw [hsame, hsame] at happlication
  exact hdead earlier (hinvalidated happlication)

def invalidateWhere (condition : FormPlanRow → Bool) (now : Timestamp) (reason : String)
    (row : FormPlanRow) : FormPlanRow :=
  if condition row then row.invalidate now reason else row

section InvalidateWhere

variable {reason : String}
  {row : FormPlanRow}

theorem invalidateWhere_applicationId :
    (invalidateWhere condition now reason row).applicationId = row.applicationId := by
  unfold invalidateWhere
  split <;> rfl

theorem invalidateWhere_dead (hdead : row.isLive = false) :
    (invalidateWhere condition now reason row).isLive = false := by
  unfold invalidateWhere
  split
  · rfl
  · exact hdead

theorem invalidateWhere_sound (hsound : row.Sound policy plan) :
    (invalidateWhere condition now reason row).Sound policy plan := by
  unfold invalidateWhere
  split
  · exact ⟨hsound.1.invalidate, hsound.2⟩
  · exact hsound

theorem sound_invalidateWhere {written : List FormPlanV1}
    (hsound : List.Forall₂ (FormPlanRow.Sound policy) rows written) :
    List.Forall₂ (FormPlanRow.Sound policy) (rows.map (invalidateWhere condition now reason))
      written := by
  rw [List.forall₂_map_left_iff]
  exact hsound.imp fun _ _ => invalidateWhere_sound

end InvalidateWhere

/-! ## The invariant -/

/-- Every row holds the plan it was written for, and only the last plan of an application
is live. -/
structure PlansKept (policy : PlanPolicy) (db : PlanDatabase) (written : List FormPlanV1) :
    Prop where
  sound : List.Forall₂ (FormPlanRow.Sound policy) db.plans written
  lastLive : OnlyLastLive db.plans

namespace PlansKept

variable {written : List FormPlanV1}

variable {row : FormPlanRow}

/-- A write that invalidates the earlier plans of its application. -/
theorem addPlan (hkept : PlansKept policy db written)
    {change : ApplicationRow → ApplicationRow} (hsound : row.Sound policy plan)
    (happlication : row.applicationId = applicationId) :
    PlansKept policy (db.addPlan applicationId now reason change row) (written ++ [plan]) := by
  let condition := fun row : FormPlanRow => row.applicationId == applicationId && row.isLive
  have hplans : (db.addPlan applicationId now reason change row).plans =
      db.plans.map (invalidateWhere condition now reason) ++ [row] := rfl
  constructor
  · rw [hplans]
    exact List.rel_append (sound_invalidateWhere hkept.sound)
      (.cons hsound .nil)
  · rw [hplans]
    refine List.pairwise_append.mpr ⟨onlyLastLive_map hkept.lastLive
      (fun _ => invalidateWhere_applicationId) (fun _ => invalidateWhere_dead),
      List.pairwise_singleton _ _, ?_⟩
    intro earlier hearlier later hlater hsame
    rw [List.mem_singleton.mp hlater, happlication] at hsame
    obtain ⟨before, _, rfl⟩ := List.mem_map.mp hearlier
    rw [invalidateWhere_applicationId] at hsame
    cases hlive : before.isLive with
    | false => exact invalidateWhere_dead hlive
    | true =>
      have hcondition : condition before = true := by
        simp only [condition, hsame, hlive, beq_self_eq_true, Bool.and_self]
      rw [invalidateWhere, if_pos hcondition]
      rfl

/-- An application has at most one live plan, its last one. -/
theorem livePlans_cases (hkept : PlansKept policy db written) (applicationId : ℕ) :
    db.livePlans applicationId = [] ∨
      ∃ row, db.livePlans applicationId = [row] ∧ db.lastPlan applicationId = some row := by
  have hpairs : (db.plansOf applicationId).Pairwise fun earlier _ => earlier.isLive = false := by
    refine (List.pairwise_filter.mpr (hkept.lastLive.imp ?_))
    intro earlier later hdead hearlier hlater
    exact hdead ((eq_of_beq hearlier).trans (eq_of_beq hlater).symm)
  simp only [PlanDatabase.livePlans, PlanDatabase.lastPlan]
  cases hplans : db.plansOf applicationId using List.reverseRecOn with
  | nil => exact .inl rfl
  | append_singleton earlier last =>
    rw [hplans, List.pairwise_append] at hpairs
    have hnone : earlier.filter FormPlanRow.isLive = [] := by
      rw [List.filter_eq_nil_iff]
      intro row hrow hlive
      rw [hpairs.2.2 row hrow last (List.mem_singleton_self _)] at hlive
      cases hlive
    rw [List.filter_append, hnone, List.nil_append, List.getLast?_concat]
    cases hlive : last.isLive with
    | false => exact .inl (List.filter_eq_nil_iff.mpr (by simp [hlive]))
    | true => exact .inr ⟨last, List.filter_eq_self.mpr (by simp [hlive]), rfl⟩

theorem storedPlan_sound (hkept : PlansKept policy db written)
    (hstored : db.storedPlan applicationId planId = some row) :
    row.applicationId = applicationId ∧ ∃ plan ∈ written, row.Sound policy plan := by
  have hmem : row ∈ db.plans := List.mem_of_find?_eq_some hstored
  have hkey := List.find?_some hstored
  simp only [Bool.and_eq_true, beq_iff_eq] at hkey
  refine ⟨hkey.1, ?_⟩
  obtain ⟨index, hindex, rfl⟩ := List.mem_iff_getElem.mp hmem
  have hlength := hkept.sound.length_eq
  exact ⟨written[index], List.getElem_mem _, hkept.sound.get hindex (hlength ▸ hindex)⟩

end PlansKept

/-! ## The operations -/

namespace PlanStore

variable {store : PlanStore} {db next : PlanDatabase} {written : List FormPlanV1}
  {row : FormPlanRow}

theorem applicationById_id (hfound : db.applicationById applicationId = some application) :
    application.id = applicationId := by
  simpa using List.find?_some hfound

theorem checkObservation_application
    (hchecked : store.checkObservation db application plan observedAt = .ok now) :
    plan.contract.applicationId = application.id := by
  unfold checkObservation at hchecked
  cases hjob : application.job with
  | none =>
    rw [hjob] at hchecked
    cases hchecked
  | some job =>
    rw [hjob] at hchecked
    simp only at hchecked
    split at hchecked
    · cases hchecked
    next hsame => exact not_not.mp hsame

/-- A plan is returned as it was stored under its id, or it is written. -/
theorem persist_cases
    (hpersist : store.persistInspectedFormPlan db applicationId plan observedAt = .ok (row, next)) :
    (db.storedPlan applicationId plan.contract.planId = some row ∧ next = db) ∨
      (db.storedPlan applicationId plan.contract.planId = none ∧
        plan.contract.applicationId = applicationId ∧ row = inspectedRow plan ∧
        ∃ now, next =
          db.addPlan applicationId now "FORM_REINSPECTED" ApplicationRow.unprepared row) := by
  unfold persistInspectedFormPlan at hpersist
  cases hfound : db.applicationById applicationId with
  | none =>
    rw [hfound] at hpersist
    cases hpersist
  | some application =>
    rw [hfound] at hpersist
    have hid := applicationById_id hfound
    cases hchecked : store.checkObservation db application plan observedAt with
    | error refusal =>
      simp only [hchecked] at hpersist
      cases hpersist
    | ok now =>
      have happlication := checkObservation_application hchecked
      rw [hid] at happlication
      cases hstored : db.storedPlan applicationId plan.contract.planId with
      | some duplicate =>
        simp only [hchecked, hid, hstored] at hpersist
        cases hpersist
        exact .inl ⟨rfl, rfl⟩
      | none =>
        simp only [hchecked, hid, hstored] at hpersist
        split at hpersist
        · cases hpersist
        cases hpersist
        exact .inr ⟨rfl, happlication, rfl, now, rfl⟩

/-- What a confirmation clones: the plan of a stored row, as that row decodes. -/
theorem confirmedClone_eq_ok {call : ConfirmCall}
    (hconfirmed : store.confirmedClone db application call = .ok confirmed) :
    ∃ revision replacement,
      db.storedPlan application.id call.body.planId = some confirmed.source ∧
      confirmed.source.reconstructPersistedFormPlan store.policy.toPlanPolicy store.uuids
        = .ok confirmed.plan ∧
      validatedClone store.policy confirmed.plan call.newPlanId revision replacement
        = .ok confirmed.clone := by
  obtain ⟨⟨source, reviewed⟩, hreviewed, hconfirmed⟩ := bind_eq_ok.mp hconfirmed
  obtain ⟨field, _, hconfirmed⟩ := bind_eq_ok.mp hconfirmed
  obtain ⟨_, _, hconfirmed⟩ := bind_eq_ok.mp hconfirmed
  split at hconfirmed
  · cases hconfirmed
  obtain ⟨clone, hclone, hconfirmed⟩ := bind_eq_ok.mp hconfirmed
  split at hconfirmed
  · cases hconfirmed
  cases hconfirmed
  unfold reviewedRow at hreviewed
  split at hreviewed
  · cases hreviewed
  cases hstored : db.storedPlan application.id call.body.planId with
  | none =>
    rw [hstored] at hreviewed
    cases hreviewed
  | some stored =>
    rw [hstored] at hreviewed
    simp only at hreviewed
    split at hreviewed
    · cases hdecoded : stored.reconstructPersistedFormPlan store.policy.toPlanPolicy
        store.uuids with
      | error refusal =>
        rw [hdecoded] at hreviewed
        cases hreviewed
      | ok decoded =>
        rw [hdecoded] at hreviewed
        simp only at hreviewed
        split at hreviewed
        · cases hreviewed
          exact ⟨_, _, rfl, hdecoded, hclone⟩
        · cases hreviewed
    · cases hreviewed

variable (store)

/-- A confirmation adds the row of a plan that its validators accept. -/
theorem storeConfirmed_kept (hkept : PlansKept store.policy.toPlanPolicy db written)
    {call : ConfirmStoredCall}
    (hconfirmed : store.confirmedClone db application call.toConfirmCall = .ok confirmed) :
    PlansKept store.policy.toPlanPolicy
      (store.storeConfirmed db application call.toConfirmCall confirmed)
      (written ++ [confirmed.clone]) := by
  obtain ⟨revision, replacement, hstored, hdecoded, hclone⟩ := confirmedClone_eq_ok hconfirmed
  obtain ⟨happlication, plan, _, hholds, haccepted, hcanonical⟩ := hkept.storedPlan_sound hstored
  -- The row decodes to the plan it was written for, so that its times are those of the clone.
  have hdecodes : confirmed.source.Decodes store.policy.toPlanPolicy store.uuids plan :=
    hholds.decodes haccepted hcanonical
  cases hdecodes.reconstructed.symm.trans hdecoded
  obtain ⟨_, _, hcloned, hsame⟩ := validatedClone_eq_ok.mp hclone
  have hsound : (clonedRow confirmed.source confirmed.clone).Sound store.policy.toPlanPolicy
      confirmed.clone := by
    rw [hsame]
    exact ⟨hholds.clonedRow rfl rfl rfl, hcloned, call.canonical⟩
  have hsource : confirmed.source.applicationId = confirmed.plan.contract.applicationId :=
    congrArg FormPlanRow.applicationId hholds
  have hrow : (clonedRow confirmed.source confirmed.clone).applicationId = application.id := by
    rw [← happlication, hsource, hsame]
    rfl
  have hadded : PlansKept store.policy.toPlanPolicy
      (db.addPlan application.id call.now "ANSWER_CONFIRMED" ApplicationRow.bumped
        (clonedRow confirmed.source confirmed.clone)) (written ++ [confirmed.clone]) :=
    hkept.addPlan hsound hrow
  exact ⟨hadded.sound, hadded.lastLive⟩

/-- One event keeps the plans. -/
theorem perform_kept (hkept : PlansKept store.policy.toPlanPolicy db written)
    (event : PlanEvent store.policy.toPlanPolicy) :
    PlansKept store.policy.toPlanPolicy (store.perform db event).1
      (written ++ (store.perform db event).2.toList) := by
  cases event with
  | persist applicationId plan observedAt =>
    simp only [perform]
    cases hpersist : store.persistInspectedFormPlan db applicationId plan.plan observedAt with
    | error refusal => simpa using hkept
    | ok result =>
      obtain ⟨row, next⟩ := result
      rcases persist_cases hpersist with ⟨hstored, rfl⟩ | ⟨hnone, happlication, rfl, now, rfl⟩
      · have hkey := List.find?_some hstored
        simp only [Bool.and_eq_true, beq_iff_eq] at hkey
        simpa [hkey.2, hstored] using hkept
      · have hrow : (inspectedRow plan.plan).planId = plan.plan.contract.planId := rfl
        simp only [hrow, hnone, Option.isNone_none, if_true, Option.toList_some]
        exact hkept.addPlan ⟨inspectedRow_holds plan.plan, plan.accepted, plan.canonical⟩
          happlication
  | confirm applicationId call =>
    simp only [perform]
    cases db.applicationById applicationId with
    | none => simpa using hkept
    | some application =>
      cases hconfirmed : store.confirmedClone db application call.toConfirmCall with
      | error refusal => simpa [hconfirmed] using hkept
      | ok confirmed => simpa [hconfirmed] using storeConfirmed_kept store hkept hconfirmed
  | elsewhere applications answers nextAnswerId invalidated now reason =>
    simp only [perform, Option.toList_none, List.append_nil]
    exact ⟨sound_invalidateWhere hkept.sound, onlyLastLive_map hkept.lastLive
      (fun _ => invalidateWhere_applicationId) (fun _ => invalidateWhere_dead)⟩

/-- A run keeps the plans. -/
theorem run_kept (applications : List ApplicationRow) (answers : List OperatorApprovedAnswer)
    (nextAnswerId : ℕ) (events : List (PlanEvent store.policy.toPlanPolicy)) :
    PlansKept store.policy.toPlanPolicy
      (store.run (.unplanned applications answers nextAnswerId) events).1
      (store.run (.unplanned applications answers nextAnswerId) events).2 := by
  have hfold : ∀ (events : List (PlanEvent store.policy.toPlanPolicy))
      (state : PlanDatabase × List FormPlanV1),
      PlansKept store.policy.toPlanPolicy state.1 state.2 →
      PlansKept store.policy.toPlanPolicy
        (events.foldl (fun state event =>
          let next := store.perform state.1 event
          (next.1, state.2 ++ next.2.toList)) state).1
        (events.foldl (fun state event =>
          let next := store.perform state.1 event
          (next.1, state.2 ++ next.2.toList)) state).2 := by
    intro events
    induction events with
    | nil => exact fun _ hkept => hkept
    | cons event rest ih => exact fun state hkept => ih _ (perform_kept store hkept event)
  exact hfold events _ ⟨.nil, List.Pairwise.nil⟩

/-- A plan that is persisted and not stored yet is written as a row that both decoders read
back; a plan whose id is stored already is left as it is. -/
def PersistsExactly (db : PlanDatabase) : Prop :=
  ∀ applicationId (plan : ValidPlan store.policy.toPlanPolicy) observedAt row next,
    store.persistInspectedFormPlan db applicationId plan.plan observedAt = .ok (row, next) →
      match db.storedPlan applicationId plan.plan.contract.planId with
      | none => row ∈ next.plans ∧ row.isLive = true ∧
          row.Decodes store.policy.toPlanPolicy store.uuids plan.plan
      | some stored => row = stored ∧ next = db

/-- Each plan decodes to itself, and an application has no live plan but the last one. -/
structure DecodesAndReplaces (db : PlanDatabase) (written : List FormPlanV1) : Prop where
  decoded : List.Forall₂ (FormPlanRow.Decodes store.policy.toPlanPolicy store.uuids) db.plans
    written
  oneLive : ∀ applicationId, db.livePlans applicationId = [] ∨
    ∃ row, db.livePlans applicationId = [row] ∧ db.lastPlan applicationId = some row

theorem persistsExactly (db : PlanDatabase) : store.PersistsExactly db := by
  intro applicationId plan observedAt row next hpersist
  rcases persist_cases hpersist with ⟨hstored, rfl⟩ | ⟨hnone, _, rfl, now, rfl⟩
  · rw [hstored]
    exact ⟨rfl, rfl⟩
  · rw [hnone]
    exact ⟨List.mem_append_right _ (List.mem_singleton_self _), rfl,
      (inspectedRow_holds plan.plan).decodes plan.accepted plan.canonical⟩

/-- In every state a plan is persisted exactly, and after every run of persists, confirmations
and changes elsewhere each row decodes to the plan it was written for, of which an
application has none live but the last. -/
theorem plans_decode_and_replace :
    (∀ db, store.PersistsExactly db) ∧
      ∀ applications answers nextAnswerId events,
        store.DecodesAndReplaces
          (store.run (.unplanned applications answers nextAnswerId) events).1
          (store.run (.unplanned applications answers nextAnswerId) events).2 := by
  refine ⟨store.persistsExactly, ?_⟩
  intro applications answers nextAnswerId events
  have hkept := store.run_kept applications answers nextAnswerId events
  exact ⟨hkept.sound.imp fun _ _ hsound => hsound.1.decodes hsound.2.1 hsound.2.2,
    hkept.livePlans_cases⟩

end PlanStore

/-! ## An id that is stored already -/

def canonicalParsers : UuidParsers where
  uuid text := if isCanonicalUuid text then some text else none
  validated text := if isCanonicalUuid text then some text else none
  uuid_canonical _ hcanonical := if_pos hcanonical
  validated_canonical _ hcanonical := if_pos hcanonical

def sampleStore : PlanStore where
  policy := reviewPolicy
  uuids := canonicalParsers
  readUrl _ :=
    { greenhouseCandidate := true
      ashbyCandidate := false
      smartrecruitersCandidate := false
      hostname := some "boards.greenhouse.io" }
  storable _ := true

def sampleApplication : ApplicationRow where
  id := 1
  revision := some 1
  selectedCvId := some "cv"
  selectedCvHash := some sampleDigest
  profileVersion := some 1
  job := some ⟨some "https://boards.greenhouse.io/acme/jobs/1", none⟩
  preparedRevision := none
  approvedAt := none
  approvalSource := none
  jobFitDecisionId := none

/-- An observation of a form without fields, with a locale of its own. -/
def observedPlan (locale : String) : FormPlanV1 where
  contract :=
    { reviewContract (fun _ => none) false with
      planId := "6f1c7a52-0d3e-4b8e-9f40-2a7c5d1e8b93"
      adapterVersion := "1.0.0"
      selectorVersion := "greenhouse-candidate-v9" }
  fields := []
  disclosures := []
  decisions := []
  locale
  localLlm := rfl

def englishPlan : ValidPlan sampleStore.policy.toPlanPolicy where
  plan := observedPlan "en"
  accepted := by decide +kernel
  canonical := by decide +kernel

def germanPlan : ValidPlan sampleStore.policy.toPlanPolicy where
  plan := observedPlan "de"
  accepted := by decide +kernel
  canonical := by decide +kernel

/-- The state after the first plan is persisted. -/
def englishStored : PlanDatabase :=
  (sampleStore.run (.unplanned [sampleApplication] [] 1) [.persist 1 englishPlan (some 0)]).1

/-- A second plan under the id of the first is not written: the row that is returned decodes
to the first. -/
theorem second_plan_not_written :
    ∃ row next, sampleStore.persistInspectedFormPlan englishStored 1 germanPlan.plan (some 0)
        = .ok (row, next) ∧
      ¬row.Decodes sampleStore.policy.toPlanPolicy sampleStore.uuids germanPlan.plan := by
  refine ⟨inspectedRow englishPlan.plan, englishStored, rfl, ?_⟩
  intro hdecodes
  have hfirst : (inspectedRow englishPlan.plan).Decodes sampleStore.policy.toPlanPolicy
      sampleStore.uuids englishPlan.plan :=
    (inspectedRow_holds englishPlan.plan).decodes englishPlan.accepted englishPlan.canonical
  have hsame := Except.ok.inj (hfirst.reconstructed.symm.trans hdecodes.reconstructed)
  exact absurd (congrArg FormPlanV1.locale hsame) (by decide)

end JobApplyAgent.Forms
