import JobApplyAgent.Intake.Links

/-!
# Pending links are served

A committed link that is pending has a published task, a run that has read it, or an open
request that is about to publish it; and a delivery that is answered with 200 has stored
its text messages.  Both hold in every run in which no task starts before its link is
committed, nothing fails between a commit and the publications that follow it, a failed
run is retried, and no command rolls a stored message back.  Each condition is needed.
-/

namespace JobApplyAgent.Intake

open Library TransitionSystem

variable {before state : LinkState}

/-- The failures and orders that strand a link or lose a message do not occur. -/
def Unstranded (state : LinkState) : LinkAction → Prop
  | .look index => ∀ request, state.requests.entry index = some request →
      request.phase = .looking → request.todo.head? = some (.command .rollsBack) →
      request.messages = []
  | .publish index sent => ∀ request urlIds, state.requests.entry index = some request →
      request.phase = .publishing urlIds → urlIds ≠ [] → sent = true
  | .crash index => ∀ request urlIds, state.requests.entry index = some request →
      request.phase = .publishing urlIds → urlIds = []
  | .start urlId => ∀ index request, state.requests.entry index = some request →
      ∀ row ∈ request.urls, row.id ≠ urlId
  | .endRun run retried => ∀ urlId, state.runs.entry run = some urlId → retried = false →
      ∀ row ∈ state.urls, row.id = urlId → row.pending = false
  | _ => True

/-- A task of the link is published, a run has read it, or a request will publish it. -/
inductive Served (state : LinkState) (urlId : ℕ) : Prop
  | queued (hqueued : urlId ∈ state.queue)
  | running (run : ℕ) (hrun : state.runs.entry run = some urlId)
  | publishing (index : ℕ) (request : LinkRequest) (urlIds : List ℕ)
      (hrequest : state.requests.entry index = some request)
      (hphase : request.phase = .publishing urlIds) (hmem : urlId ∈ urlIds)

/-- Where a text message of a delivery is kept until its commit. -/
inductive Kept (messages : List String) (request : LinkRequest) (messageId : String) : Prop
  | committed (hmem : messageId ∈ messages)
  | stored (hmem : messageId ∈ request.messages)
  | storing (rawUrls : List String) (post : Option TextPost)
      (hphase : request.phase = .storing (.text messageId rawUrls post))
  | waiting (rawUrls : List String) (post : Option TextPost)
      (hmem : .text messageId rawUrls post ∈ request.todo)

/-- Everything but a submission comes in a delivery. -/
def LinkOp.ofDelivery : LinkOp → Bool
  | .submission _ _ => false
  | _ => true

theorem ofDelivery_textOps {op : LinkOp}
    (hop : op ∈ textOps rawUrls post) : op.ofDelivery = true := by
  unfold textOps at hop
  split at hop
  · obtain ⟨_, _, rfl⟩ := Option.map_eq_some_iff.mp (Option.mem_toList.mp hop)
    rfl
  · obtain ⟨_, _, rfl⟩ := List.mem_map.mp hop
    rfl

structure RequestOk (state : LinkState) (request : LinkRequest) : Prop where
  dispatched : request.batch.isSome = true → ∀ row ∈ request.urls,
    row.id ∈ state.queue ∨ request.phase = .dispatching row.id
  texts : ∀ textIds, request.batch = some textIds → ∀ messageId ∈ textIds,
    Kept state.messages request messageId
  doors : ∀ op, op ∈ request.todo ∨ request.phase = .storing op →
    op.ofDelivery = request.batch.isSome
  published : ∀ urlIds, request.phase = .publishing urlIds → request.batch = none

structure LinksOk (state : LinkState) : Prop where
  served : ∀ row ∈ state.urls, row.pending = true → Served state row.id
  requests : ∀ index request, state.requests.entry index = some request →
    RequestOk state request
  answered : ∀ textIds ∈ state.answered, ∀ messageId ∈ textIds, messageId ∈ state.messages

/-! ## Frames -/

theorem Kept.mono (hkept : Kept messages request messageId)
    (hmore : messages ⊆ more) : Kept more request messageId := by
  cases hkept with
  | committed hmem => exact .committed (hmore hmem)
  | stored hmem => exact .stored hmem
  | storing rawUrls post hphase => exact .storing rawUrls post hphase
  | waiting rawUrls post hmem => exact .waiting rawUrls post hmem

/-- A request that is not about to store the text moves on, and loses nothing of it. -/
theorem Kept.moved {moved : LinkRequest} (hkept : Kept messages request messageId)
    (hmore : messages ⊆ more)
    (hphase : ∀ rawUrls post, request.phase ≠ .storing (.text messageId rawUrls post))
    (hstored : messageId ∈ request.messages → messageId ∈ more ∨ messageId ∈ moved.messages)
    (htodo : ∀ rawUrls post, .text messageId rawUrls post ∈ request.todo →
      .text messageId rawUrls post ∈ moved.todo) : Kept more moved messageId := by
  cases hkept with
  | committed hmem => exact .committed (hmore hmem)
  | stored hmem => exact (hstored hmem).elim .committed .stored
  | storing rawUrls post hstoring => exact absurd hstoring (hphase rawUrls post)
  | waiting rawUrls post hmem => exact .waiting rawUrls post (htodo rawUrls post hmem)

/-- More messages, and a queue that keeps the tasks of the request. -/
theorem RequestOk.mono (hok : RequestOk before request)
    (hqueue : ∀ row ∈ request.urls, row.id ∈ before.queue → row.id ∈ after.queue)
    (hmessages : before.messages ⊆ after.messages) : RequestOk after request where
  dispatched := fun hbatch row hrow => (hok.dispatched hbatch row hrow).imp_left (hqueue row hrow)
  texts := fun textIds hbatch messageId hmem =>
    (hok.texts textIds hbatch messageId hmem).mono hmessages
  doors := hok.doors
  published := hok.published

/-- What a step of one request must show: the other requests, the runs and the tasks stay. -/
theorem LinksOk.moves (hok : LinksOk before)
    (hrequest : before.requests.entry index = some request)
    (hrequests : after.requests = before.requests.put index moved)
    (hruns : after.runs = before.runs) (hqueue : before.queue ⊆ after.queue)
    (hmessages : before.messages ⊆ after.messages)
    (hpublishing : ∀ urlIds, request.phase = .publishing urlIds →
      ∀ urlId ∈ urlIds, Served after urlId)
    (hurls : ∀ row ∈ after.urls, row ∈ before.urls ∨ Served after row.id)
    (hmoved : ∀ next, moved = some next → RequestOk after next)
    (hanswered : ∀ textIds ∈ after.answered, textIds ∈ before.answered ∨
      ∀ messageId ∈ textIds, messageId ∈ after.messages) : LinksOk after := by
  refine ⟨fun row hrow hpending => ?_, fun place other hother => ?_, fun textIds hmem => ?_⟩
  · rcases hurls row hrow with hold | hserved
    · cases hok.served row hold hpending with
      | queued hqueued => exact .queued (hqueue hqueued)
      | running run hrun => exact .running run (hruns ▸ hrun)
      | publishing place other urlIds hother hphase hmem =>
        by_cases hplace : place = index
        · subst hplace
          rw [hrequest] at hother
          cases hother
          exact hpublishing urlIds hphase row.id hmem
        · refine .publishing place other urlIds ?_ hphase hmem
          rw [hrequests, Slots.entry_put_of_ne _ _ hplace, hother]
    · exact hserved
  · rw [hrequests] at hother
    rcases Slots.entry_put hother with ⟨_, hsame⟩ | ⟨_, hold⟩
    · exact hmoved other hsame
    · exact (hok.requests place other hold).mono (fun _ _ hmem => hqueue hmem) hmessages
  · rcases hanswered textIds hmem with hold | hnew
    · exact fun messageId hin => hmessages (hok.answered textIds hold messageId hin)
    · exact hnew

/-- A step that neither commits nor publishes. -/
theorem LinksOk.quiet (hok : LinksOk before)
    (hrequest : before.requests.entry index = some request)
    (hnone : ∀ urlIds, request.phase = .publishing urlIds → urlIds = [])
    (hmoved : ∀ next, moved = some next → RequestOk before next) :
    LinksOk { before.setRequest index moved with nextUrl := nextUrl, conflicts := conflicts } := by
  refine hok.moves hrequest rfl rfl (List.Subset.refl _) (List.Subset.refl _) ?_ (fun _ => .inl)
    (fun next hnext => (hmoved next hnext).mono (fun _ _ => id) (List.Subset.refl _)) fun _ => .inl
  intro urlIds hphase urlId hmem
  rw [hnone urlIds hphase] at hmem
  cases hmem

/-! ## Requests -/

theorem receiveMessage_ok (items : List BatchItem) : RequestOk state (receiveMessage items) := by
  refine ⟨?_, ?_, ?_, ?_⟩
  · rintro _ row ⟨⟩
  · rintro textIds hbatch messageId hmem
    cases hbatch
    obtain ⟨item, hitem, hid⟩ := List.mem_filterMap.mp hmem
    cases item with
    | text textId rawUrls post =>
      cases hid
      exact .waiting rawUrls post (List.mem_map.mpr ⟨_, hitem, rfl⟩)
    | command effect => cases hid
  · rintro op (hmem | hstoring)
    · obtain ⟨item, _, rfl⟩ := List.mem_map.mp hmem
      cases item <;> rfl
    · cases hstoring
  · rintro urlIds ⟨⟩

theorem submitLink_ok (door : SubmissionDoor) (rawUrl : String) :
    RequestOk state (submitLink door rawUrl) := by
  refine ⟨?_, ?_, ?_, ?_⟩
  · rintro _ row ⟨⟩
  · rintro textIds ⟨⟩
  · rintro op (hmem | hstoring)
    · rw [List.mem_singleton.mp hmem]
      rfl
    · cases hstoring
  · rintro urlIds ⟨⟩

/-! ## Steps of a request -/

theorem RequestOk.queued (hok : RequestOk state request)
    (hphase : ∀ urlId, request.phase ≠ .dispatching urlId) (hbatch : request.batch.isSome = true) :
    ∀ row ∈ request.urls, row.id ∈ state.queue :=
  fun row hrow => (hok.dispatched hbatch row hrow).resolve_right (hphase row.id)

theorem LinksOk.look (hok : LinksOk before)
    (hrequest : before.requests.entry index = some request)
    (hunstranded : Unstranded before (.look index))
    (hstep : lookUp codec before index request = some after) : LinksOk after := by
  have hrunning := hok.requests index request hrequest
  obtain ⟨batch, todo, phase, stored, urls, posts⟩ := request
  unfold lookUp at hstep
  split at hstep
  · next rest hphase htodo =>
    obtain rfl : phase = .looking := hphase
    obtain rfl : todo = .command .commits :: rest := htodo
    cases hstep
    have hqueued := hrunning.queued nofun (hrunning.doors _ (.inl (.head _))).symm
    refine hok.moves hrequest rfl rfl (List.Subset.refl _) (List.subset_append_left _ _)
      (fun _ hphase => nomatch hphase) (fun row hrow => ?_) ?_ fun _ => .inl
    · exact (List.mem_append.mp hrow).imp_right fun hnew => .queued (hqueued row hnew)
    · rintro _ ⟨⟩
      refine ⟨fun _ _ hrow => (nomatch hrow), fun textIds htexts messageId hmem => ?_,
        fun op hop => hrunning.doors op (hop.imp_left (.tail _)), hrunning.published⟩
      exact (hrunning.texts textIds htexts messageId hmem).moved (List.subset_append_left _ _)
        nofun (fun hstored => .inl (List.mem_append_right _ hstored))
        fun _ _ hmem => (List.mem_cons.mp hmem).resolve_left nofun
  · next rest hphase htodo =>
    obtain rfl : phase = .looking := hphase
    obtain rfl : todo = .command .rollsBack :: rest := htodo
    cases hstep
    obtain rfl : stored = [] := hunstranded _ hrequest rfl rfl
    refine hok.quiet hrequest (fun _ hphase => nomatch hphase) ?_
    rintro _ ⟨⟩
    refine ⟨fun _ _ hrow => (nomatch hrow), fun textIds htexts messageId hmem => ?_,
      fun op hop => hrunning.doors op (hop.imp_left (.tail _)), hrunning.published⟩
    exact (hrunning.texts textIds htexts messageId hmem).moved (List.Subset.refl _) nofun .inr
      fun _ _ hmem => (List.mem_cons.mp hmem).resolve_left nofun
  · cases hstep
  · next op rest _ _ _ hphase htodo =>
    obtain rfl : phase = .looking := hphase
    obtain rfl : todo = op :: rest := htodo
    cases hstep
    refine hok.quiet hrequest (fun _ hphase => nomatch hphase) ?_
    rintro _ ⟨⟩
    refine ⟨fun hbatch row hrow => .inl (hrunning.queued nofun hbatch row hrow),
      fun textIds htexts messageId hmem => ?_, ?_, ?_⟩
    · cases hrunning.texts textIds htexts messageId hmem with
      | committed hmem => exact .committed hmem
      | stored hmem => exact .stored hmem
      | storing _ _ hstoring => cases hstoring
      | waiting rawUrls post hmem =>
        rcases List.mem_cons.mp hmem with rfl | hrest
        · by_cases hfound : LinkOp.found codec before
            ⟨batch, .text messageId rawUrls post :: rest, .looking, stored, urls, posts⟩
            (.text messageId rawUrls post) = true
          · simp only [LinkOp.found, Bool.or_eq_true, decide_eq_true_eq] at hfound
            exact hfound.elim (fun hmem => .committed hmem) fun hmem => .stored hmem
          · exact .storing rawUrls post (if_neg hfound)
        · exact .waiting rawUrls post hrest
    · rintro other (hmem | hstoring)
      · exact hrunning.doors other (.inl (.tail _ hmem))
      · simp only at hstoring
        split at hstoring <;> cases hstoring
        exact hrunning.doors _ (.inl (.head _))
    · intro urlIds hpublishing
      simp only at hpublishing
      split at hpublishing <;> cases hpublishing
  · cases hstep

theorem LinksOk.probe (hok : LinksOk before)
    (hrequest : before.requests.entry index = some request)
    (hstep : probeJob before index request known = some after) : LinksOk after := by
  have hrunning := hok.requests index request hrequest
  obtain ⟨batch, todo, phase, stored, urls, posts⟩ := request
  unfold probeJob at hstep
  split at hstep
  swap
  · cases hstep
  next post rest hphase htodo =>
  obtain rfl : phase = .looking := hphase
  obtain rfl : todo = .post post :: rest := htodo
  cases hstep
  refine hok.quiet hrequest (fun _ hphase => nomatch hphase) ?_
  rintro _ ⟨⟩
  refine ⟨fun hbatch row hrow => .inl (hrunning.queued nofun hbatch row hrow),
    fun textIds htexts messageId hmem => ?_, fun op hop => ?_, hrunning.published⟩
  · refine (hrunning.texts textIds htexts messageId hmem).moved (List.Subset.refl _) nofun .inr ?_
    intro rawUrls other hmem
    have hrest := (List.mem_cons.mp hmem).resolve_left nofun
    simp only
    split
    · exact hrest
    · exact .tail _ (.tail _ hrest)
  · have hdelivery := hrunning.doors _ (.inl (.head _))
    have hmem := hop.resolve_right nofun
    simp only at hmem
    split at hmem
    · exact hrunning.doors op (.inl (.tail _ hmem))
    · simp only [List.mem_cons] at hmem
      rcases hmem with rfl | rfl | hrest
      · exact hdelivery
      · exact hdelivery
      · exact hrunning.doors op (.inl (.tail _ hrest))

theorem insertMessage_cases (hinsert : before.insertMessage index messageId stored = some after) :
    after = { before.setRequest index none with conflicts := before.conflicts + 1 } ∨
      after = stored := by
  unfold LinkState.insertMessage at hinsert
  split at hinsert
  · exact .inl (Option.some.inj hinsert).symm
  split at hinsert
  · cases hinsert
  · exact .inr (Option.some.inj hinsert).symm

theorem LinksOk.store (hok : LinksOk before)
    (hrequest : before.requests.entry index = some request)
    (hstep : storeRow codec before index request = some after) : LinksOk after := by
  have hrunning := hok.requests index request hrequest
  obtain ⟨batch, todo, phase, stored, urls, posts⟩ := request
  unfold storeRow at hstep
  split at hstep
  · next textId rawUrls post hphase =>
    obtain rfl : phase = .storing (.text textId rawUrls post) := hphase
    rcases insertMessage_cases hstep with rfl | rfl <;>
      refine hok.quiet hrequest (fun _ hphase => nomatch hphase) ?_ <;> rintro _ ⟨⟩
    refine ⟨fun hbatch row hrow => .inl (hrunning.queued nofun hbatch row hrow),
      fun textIds htexts messageId hmem => ?_, ?_, fun _ hphase => nomatch hphase⟩
    · cases hrunning.texts textIds htexts messageId hmem with
      | committed hmem => exact .committed hmem
      | stored hmem => exact .stored (List.mem_append_left _ hmem)
      | storing _ _ hstoring =>
        cases hstoring
        exact .stored (List.mem_append_right _ (.head _))
      | waiting urls post hmem => exact .waiting urls post (List.mem_append_right _ hmem)
    · rintro op (hmem | hstoring)
      · rcases List.mem_append.mp hmem with hnext | hold
        · rw [ofDelivery_textOps hnext]
          exact hrunning.doors (.text textId rawUrls post) (.inr rfl)
        · exact hrunning.doors op (.inl hold)
      · cases hstoring
  · next rawUrl hphase =>
    obtain rfl : phase = .storing (.link rawUrl) := hphase
    cases hstep
    refine hok.quiet hrequest (fun _ hphase => nomatch hphase) ?_
    rintro _ ⟨⟩
    refine ⟨fun hbatch row hrow => ?_, fun textIds htexts messageId hmem => ?_,
      fun op hop => hrunning.doors op (.inl (hop.resolve_right nofun)),
      fun _ hphase => nomatch hphase⟩
    · rcases List.mem_append.mp hrow with hold | hnew
      · exact .inl (hrunning.queued nofun hbatch row hold)
      · rw [List.mem_singleton.mp hnew]
        exact .inr rfl
    · exact (hrunning.texts textIds htexts messageId hmem).moved (List.Subset.refl _) nofun .inr
        fun _ _ => id
  · next post hphase =>
    obtain rfl : phase = .storing (.job post) := hphase
    cases hstep
    refine hok.quiet hrequest (fun _ hphase => nomatch hphase) ?_
    rintro _ ⟨⟩
    refine ⟨fun hbatch row hrow => .inl (hrunning.queued nofun hbatch row hrow),
      fun textIds htexts messageId hmem => ?_,
      fun op hop => hrunning.doors op (.inl (hop.resolve_right nofun)),
      fun _ hphase => nomatch hphase⟩
    exact (hrunning.texts textIds htexts messageId hmem).moved (List.Subset.refl _) nofun .inr
      fun _ _ => id
  · next door rawUrl hphase =>
    obtain rfl : phase = .storing (.submission door rawUrl) := hphase
    obtain rfl : batch = none :=
      Option.isSome_eq_false_iff.mp (hrunning.doors _ (.inr rfl)).symm |>
        Option.isNone_iff_eq_none.mp
    rcases insertMessage_cases hstep with rfl | rfl <;>
      refine hok.quiet hrequest (fun _ hphase => nomatch hphase) ?_ <;> rintro _ ⟨⟩
    exact ⟨nofun, nofun, fun op hop => hrunning.doors op (.inl (hop.resolve_right nofun)),
      fun _ hphase => nomatch hphase⟩
  · cases hstep

theorem RequestOk.published_one (hok : RequestOk before request)
    (hqueue : ∀ row ∈ request.urls, request.phase = .dispatching row.id → row.id = urlId)
    (htexts : ∀ op, request.phase ≠ .storing op)
    (hphase : phase = .looking ∨ request.batch = none ∧ ∃ urlIds, phase = .publishing urlIds)
    (hafter : after.queue = before.queue ++ [urlId])
    (hmessages : after.messages = before.messages) :
    RequestOk after { request with phase := phase } := by
  refine ⟨fun hbatch row hrow => .inl ?_, fun textIds hbatch messageId hmem => ?_, ?_, ?_⟩
  · rw [hafter]
    rcases hok.dispatched hbatch row hrow with hqueued | hdispatching
    · exact List.mem_append_left _ hqueued
    · rw [hqueue row hrow hdispatching]
      exact List.mem_append_right _ (.head _)
  · rw [hmessages]
    exact (hok.texts textIds hbatch messageId hmem).moved (List.Subset.refl _)
      (fun _ _ => htexts _) .inr fun _ _ => id
  · rintro op (hmem | hstoring)
    · exact hok.doors op (.inl hmem)
    · rcases hphase with rfl | ⟨_, urlIds, rfl⟩ <;> cases hstoring
  · rintro urlIds hpublishing
    rcases hphase with rfl | ⟨hnone, _⟩
    · cases hpublishing
    · exact hnone

theorem LinksOk.publish (hok : LinksOk before)
    (hrequest : before.requests.entry index = some request)
    (hunstranded : Unstranded before (.publish index sent))
    (hstep : publishTask before index request sent = some after) : LinksOk after := by
  have hrunning := hok.requests index request hrequest
  obtain ⟨batch, todo, phase, stored, urls, posts⟩ := request
  cases phase with
  | looking | storing => cases hstep
  | dispatching urlId =>
    unfold publishTask at hstep
    simp only at hstep
    split at hstep <;> cases hstep
    · refine hok.moves hrequest rfl rfl (List.subset_append_left _ _) (List.Subset.refl _)
        (fun _ hphase => nomatch hphase) (fun _ => .inl) ?_ fun _ => .inl
      rintro _ ⟨⟩
      refine hrunning.published_one ?_ nofun (.inl rfl) rfl rfl
      rintro row _ hdispatching
      exact (LinkPhase.dispatching.inj hdispatching).symm
    · refine hok.quiet hrequest (fun _ hphase => nomatch hphase) ?_
      rintro _ ⟨⟩
  | publishing urlIds =>
    cases urlIds with
    | nil =>
      cases hstep
      refine hok.quiet hrequest (fun _ hphase => (LinkPhase.publishing.inj hphase).symm) ?_
      rintro _ ⟨⟩
    | cons urlId rest =>
      obtain rfl : sent = true := hunstranded _ _ hrequest rfl (List.cons_ne_nil _ _)
      cases hstep
      refine hok.moves hrequest rfl rfl (List.subset_append_left _ _) (List.Subset.refl _)
        ?_ (fun _ => .inl) ?_ fun _ => .inl
      · rintro _ ⟨⟩ other hmem
        rcases List.mem_cons.mp hmem with rfl | hrest
        · exact .queued (List.mem_append_right _ (.head _))
        · exact .publishing index _ rest (Slots.entry_put_self hrequest _) rfl hrest
      · rintro _ ⟨⟩
        exact hrunning.published_one nofun nofun
          (.inr ⟨hrunning.published _ rfl, rest, rfl⟩) rfl rfl

theorem LinksOk.commit (hok : LinksOk before)
    (hrequest : before.requests.entry index = some request)
    (hstep : commitRequest before index request = some after) : LinksOk after := by
  have hrunning := hok.requests index request hrequest
  obtain ⟨batch, todo, phase, stored, urls, posts⟩ := request
  unfold commitRequest at hstep
  split at hstep
  swap
  · cases hstep
  next hphase htodo =>
  obtain rfl : phase = .looking := hphase
  obtain rfl : todo = [] := htodo
  cases batch with
  | some textIds =>
    cases hstep
    have hqueued := hrunning.queued nofun rfl
    refine hok.moves hrequest rfl rfl (List.Subset.refl _) (List.subset_append_left _ _)
      (fun _ hphase => nomatch hphase) (fun row hrow => ?_) ?_ fun answered hmem => ?_
    · exact (List.mem_append.mp hrow).imp_right fun hnew => .queued (hqueued row hnew)
    · rintro _ ⟨⟩
    · refine (List.mem_append.mp hmem).imp_right fun hnew messageId hin => ?_
      rw [List.mem_singleton.mp hnew] at hin
      -- nothing is left to do, so that each text is committed or stored
      cases hrunning.texts textIds rfl messageId hin with
      | committed hcommitted => exact List.mem_append_left _ hcommitted
      | stored hstored => exact List.mem_append_right _ hstored
      | storing _ _ hstoring => cases hstoring
      | waiting _ _ hwaiting => cases hwaiting
  | none =>
    cases hstep
    refine hok.moves hrequest rfl rfl (List.Subset.refl _) (List.subset_append_left _ _)
      (fun _ hphase => nomatch hphase) (fun row hrow => ?_) ?_ fun _ => .inl
    · refine (List.mem_append.mp hrow).imp_right fun hnew => ?_
      exact .publishing index _ _ (Slots.entry_put_self hrequest _) rfl (List.mem_map_of_mem hnew)
    · rintro _ ⟨⟩
      exact ⟨nofun, nofun, fun op hop => hrunning.doors op (.inl (hop.resolve_right nofun)),
        fun _ _ => rfl⟩

/-! ## Runs of tasks -/

/-- A link that is served by a request stays served while no request moves. -/
theorem Served.mono (hserved : Served before urlId) (hrequests : after.requests = before.requests)
    (hqueue : urlId ∈ before.queue → Served after urlId)
    (hruns : ∀ run, before.runs.entry run = some urlId → Served after urlId) :
    Served after urlId := by
  cases hserved with
  | queued hqueued => exact hqueue hqueued
  | running run hrun => exact hruns run hrun
  | publishing place request urlIds hrequest hphase hmem =>
    exact .publishing place request urlIds (hrequests ▸ hrequest) hphase hmem

/-- A step that leaves the requests and the messages alone. -/
theorem LinksOk.tasks (hok : LinksOk before) (hrequests : after.requests = before.requests)
    (hmessages : after.messages = before.messages) (hanswered : after.answered = before.answered)
    (hserved : ∀ row ∈ after.urls, row.pending = true → Served after row.id)
    (hqueue : ∀ index request, before.requests.entry index = some request →
      ∀ row ∈ request.urls, row.id ∈ before.queue → row.id ∈ after.queue) : LinksOk after := by
  refine ⟨hserved, fun index request hrequest => ?_, ?_⟩
  · rw [hrequests] at hrequest
    refine (hok.requests index request hrequest).mono (hqueue index request hrequest) ?_
    rw [hmessages]
    exact List.Subset.refl _
  · rw [hanswered, hmessages]
    exact hok.answered

theorem LinksOk.start (hok : LinksOk before) (hunstranded : Unstranded before (.start urlId))
    (hstep : performLink codec before (.start urlId) = some after) : LinksOk after := by
  simp only [performLink, Option.ite_none_right_eq_some] at hstep
  obtain ⟨_, hstart⟩ := hstep
  have hqueue : ∀ index request, before.requests.entry index = some request →
      ∀ row ∈ request.urls, row.id ∈ before.queue → row.id ∈ before.queue.erase urlId := by
    intro index request hrequest row hrow hmem
    exact (List.mem_erase_of_ne (hunstranded index request hrequest row hrow)).mpr hmem
  split at hstart
  · cases hstart
    refine hok.tasks rfl rfl rfl (fun row hrow hpending => ?_) hqueue
    by_cases hsame : row.id = urlId
    · rw [hsame]
      exact .running _ (Slots.entry_add_self _ _)
    · exact (hok.served row hrow hpending).mono rfl
        (fun hqueued => .queued ((List.mem_erase_of_ne hsame).mpr hqueued))
        fun run hrun => .running run (Slots.entry_add_of_entry hrun _)
  · next hmissing =>
    cases hstart
    refine hok.tasks rfl rfl rfl (fun row hrow hpending => ?_) hqueue
    have hother : row.id ≠ urlId := fun hsame =>
      hmissing (List.any_eq_true.mpr ⟨row, hrow, decide_eq_true hsame⟩)
    exact (hok.served row hrow hpending).mono rfl
      (fun hqueued => .queued ((List.mem_erase_of_ne hother).mpr hqueued))
      fun run hrun => .running run hrun

theorem LinksOk.settle (hok : LinksOk before) (urlId : ℕ) :
    LinksOk { before with urls := before.urls.map (settleRow urlId) } := by
  refine hok.tasks rfl rfl rfl (fun row hrow hpending => ?_) fun _ _ _ _ _ => id
  obtain ⟨old, hold, rfl⟩ := List.mem_map.mp hrow
  unfold settleRow at hpending ⊢
  split at hpending
  · cases hpending
  next hother =>
  rw [if_neg hother]
  exact (hok.served old hold hpending).mono rfl (fun hqueued => .queued hqueued)
    fun run hrun => .running run hrun

theorem LinksOk.endRun (hok : LinksOk before)
    (hrun : before.runs.entry run = some urlId)
    (hunstranded : Unstranded before (.endRun run retried)) :
    LinksOk { before with
      runs := before.runs.put run none
      queue := if retried then before.queue ++ [urlId] else before.queue } := by
  have hqueue : ∀ other ∈ before.queue,
      other ∈ (if retried then before.queue ++ [urlId] else before.queue) := by
    intro other hmem
    split
    · exact List.mem_append_left _ hmem
    · exact hmem
  refine hok.tasks rfl rfl rfl (fun row hrow hpending => ?_) fun _ _ _ row _ => hqueue row.id
  refine (hok.served row hrow hpending).mono rfl (fun hqueued => .queued (hqueue row.id hqueued))
    fun other hother => ?_
  by_cases hsame : other = run
  · rw [hsame, hrun] at hother
    have hid : row.id = urlId := (Option.some.inj hother).symm
    cases hretried : retried with
    | false =>
      rw [hunstranded urlId hrun hretried row hrow hid] at hpending
      cases hpending
    | true =>
      rw [hid]
      exact .queued (List.mem_append_right _ (.head _))
  · exact .running other ((Slots.entry_put_of_ne _ _ hsame).trans hother)

/-! ## Runs of the system -/

theorem LinksOk.add (hok : LinksOk before) (hrequest : RequestOk before request) :
    LinksOk { before with requests := before.requests.add request } := by
  refine ⟨fun row hrow hpending => ?_, fun place other hother => ?_, hok.answered⟩
  · cases hok.served row hrow hpending with
    | queued hqueued => exact .queued hqueued
    | running run hrun => exact .running run hrun
    | publishing place other urlIds hother hphase hmem =>
      exact .publishing place other urlIds (Slots.entry_add_of_entry hother _) hphase hmem
  · rcases Slots.entry_add hother with ⟨hold, _⟩ | ⟨_, rfl⟩
    · exact (hok.requests place other hold).mono (fun _ _ => id) (List.Subset.refl _)
    · exact hrequest.mono (fun _ _ => id) (List.Subset.refl _)

theorem LinksOk.step (hok : LinksOk before) (hunstranded : Unstranded before action)
    (hstep : performLink codec before action = some after) : LinksOk after := by
  cases action with
  | deliver items =>
    cases hstep
    exact hok.add (receiveMessage_ok items)
  | submit door rawUrl =>
    cases hstep
    exact hok.add (submitLink_ok door rawUrl)
  | look index =>
    obtain ⟨request, hrequest, hlook⟩ := Option.bind_eq_some_iff.mp hstep
    exact hok.look hrequest hunstranded hlook
  | probe index known =>
    obtain ⟨request, hrequest, hprobe⟩ := Option.bind_eq_some_iff.mp hstep
    exact hok.probe hrequest hprobe
  | store index =>
    obtain ⟨request, hrequest, hstore⟩ := Option.bind_eq_some_iff.mp hstep
    exact hok.store hrequest hstore
  | publish index sent =>
    obtain ⟨request, hrequest, hpublish⟩ := Option.bind_eq_some_iff.mp hstep
    exact hok.publish hrequest hunstranded hpublish
  | commit index =>
    obtain ⟨request, hrequest, hcommit⟩ := Option.bind_eq_some_iff.mp hstep
    exact hok.commit hrequest hcommit
  | crash index =>
    obtain ⟨request, hrequest, rfl⟩ := Option.map_eq_some_iff.mp hstep
    refine hok.quiet hrequest (fun urlIds hphase => hunstranded request urlIds hrequest hphase) ?_
    rintro _ ⟨⟩
  | start urlId => exact hok.start hunstranded hstep
  | settle run =>
    obtain ⟨urlId, _, rfl⟩ := Option.map_eq_some_iff.mp hstep
    exact hok.settle urlId
  | endRun run retried =>
    obtain ⟨urlId, hrun, rfl⟩ := Option.map_eq_some_iff.mp hstep
    exact hok.endRun hrun hunstranded

theorem linksOk_invariant (codec : LinkCodec) :
    (linkSystem codec).Invariant Unstranded LinksOk where
  init := by
    rintro state rfl
    refine ⟨?_, ?_, ?_⟩
    · rintro row ⟨⟩
    · intro index request hrequest
      cases hrequest
    · rintro textIds ⟨⟩
  step := fun _ _ _ hok hunstranded hstep => hok.step hunstranded hstep

/-- In every run without such a failure or order, each committed pending link is served, and
each delivery that was answered with 200 has stored its text messages. -/
theorem no_link_stranded (codec : LinkCodec)
    (hreach : (linkSystem codec).Reachable Unstranded state) :
    (∀ row ∈ state.urls, row.pending = true → Served state row.id) ∧
      ∀ textIds ∈ state.answered, ∀ messageId ∈ textIds, messageId ∈ state.messages := by
  have hok := (linksOk_invariant codec).reachable hreach
  exact ⟨hok.served, hok.answered⟩

def sampleLinks : LinkCodec where
  normalizeUrl := id
  urlHash := id
  submissionId := fun _ hash => hash

def orderlyCheck (state : LinkState) : LinkAction → Bool
  | .look index => (state.requests.entry index).all fun request =>
    request.todo.head? != some (.command .rollsBack)
  | .publish _ sent => sent
  | .crash _ | .start _ | .endRun _ _ => false
  | _ => true

theorem unstranded_of_check (state : LinkState) (action : LinkAction)
    (hcheck : orderlyCheck state action = true) : Unstranded state action := by
  cases action with
  | look index =>
    intro request hrequest _ hhead
    simp only [orderlyCheck, hrequest, Option.all_some, hhead, bne_self_eq_false] at hcheck
    cases hcheck
  | publish index sent => exact fun _ _ _ _ _ => hcheck
  | crash index | start urlId | endRun run retried => cases hcheck
  | _ => trivial

def linkRun (check : LinkState → LinkAction → Bool) (actions : List LinkAction) : LinkState :=
  runEnd (performLink sampleLinks) check noLinks actions

theorem linkRun_reachable {guard : LinkState → LinkAction → Prop}
    (hcheck : ∀ state action, check state action = true → guard state action)
    (actions : List LinkAction) :
    (linkSystem sampleLinks).Reachable guard (linkRun check actions) := by
  apply runEnd_reachable
  · exact fun _ _ _ hstep => hstep
  · exact hcheck
  · rfl

/-- A submission is stored, committed and published. -/
def submittedLink : LinkState :=
  linkRun orderlyCheck [.submit .ingest "u", .look 0, .store 0, .commit 0, .publish 0 true]

theorem no_link_stranded_sample :
    (∃ row ∈ submittedLink.urls, row.pending = true) ∧
      ∀ row ∈ submittedLink.urls, row.pending = true → Served submittedLink row.id :=
  ⟨by decide, (no_link_stranded sampleLinks (linkRun_reachable unstranded_of_check _)).1⟩

/-- A delivery publishes the task of its link, which starts before the commit. -/
def earlyStart : LinkState :=
  linkRun (fun _ _ => true)
    [.deliver [.text "m" ["u"] none], .look 0, .store 0, .look 0, .store 0, .publish 0
      true, .start 0,
      .commit 0]

/-- A submission cannot publish its task; the client repeats it. -/
def unpublished : LinkState :=
  linkRun (fun _ _ => true)
    [.submit .ingest "u", .look 0, .store 0, .commit 0, .publish 0 false,
      .submit .ingest "u", .look 1, .commit 1, .publish 1 true]

/-- A command rolls the batch back after a text message was stored. -/
def rolledBack : LinkState :=
  linkRun (fun _ _ => true)
    [.deliver [.text "m" [] none, .command .rollsBack], .look 0, .store 0, .look 0, .commit 0]

/-- Without tasks, runs and requests nothing is served. -/
theorem not_served (hqueue : state.queue = []) (hruns : state.runs = [])
    (hrequests : ∀ request ∈ state.requests, request = none) : ¬ Served state urlId := by
  rintro (hqueued | ⟨run, hrun⟩ | ⟨index, request, urlIds, hrequest, _, _⟩)
  · rw [hqueue] at hqueued
    cases hqueued
  · rw [hruns] at hrun
    cases hrun
  · unfold Slots.entry at hrequest
    rw [Option.join_eq_some_iff] at hrequest
    cases hrequests _ (List.mem_of_getElem? hrequest)

/-- Stranded links, and an answered delivery without its text message. -/
theorem link_stranded :
    ((linkSystem sampleLinks).Reachable anyLinkStep earlyStart ∧
      ∃ row ∈ earlyStart.urls, row.pending = true ∧ ¬ Served earlyStart row.id) ∧
    ((linkSystem sampleLinks).Reachable anyLinkStep unpublished ∧
      ∃ row ∈ unpublished.urls, row.pending = true ∧ ¬ Served unpublished row.id) ∧
    ((linkSystem sampleLinks).Reachable anyLinkStep rolledBack ∧
      ["m"] ∈ rolledBack.answered ∧ "m" ∉ rolledBack.messages) := by
  refine ⟨⟨linkRun_reachable (fun _ _ _ => trivial) _, ⟨0, "u", true⟩, by decide, rfl, ?_⟩,
    ⟨linkRun_reachable (fun _ _ _ => trivial) _, ⟨0, "u", true⟩, by decide, rfl, ?_⟩,
    linkRun_reachable (fun _ _ _ => trivial) _, by decide, by decide⟩
  · exact not_served (by decide) (by decide) (by decide)
  · exact not_served (by decide) (by decide) (by decide)

end JobApplyAgent.Intake
