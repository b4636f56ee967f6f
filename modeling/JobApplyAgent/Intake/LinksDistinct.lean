import JobApplyAgent.Intake.Links
import JobApplyAgent.Library.Hands

/-!
# One row for each message and each link

A request has a message or a link in hand from the moment at which it looked it up in vain
until its commit.  In every run in which no other request looks up what is in hand, no
message and no link is stored twice, and no request fails on a message that is there.
-/

namespace JobApplyAgent.Intake

open Library TransitionSystem

variable {before after state : LinkState}
  {moved : LinkRequest}

section Hands

variable (codec)

def LinkRequest.storing (request : LinkRequest) : Option LinkOp :=
  match request.phase with
  | .storing op => some op
  | _ => none

def LinkRequest.handMessages (request : LinkRequest) : List String :=
  request.messages ++ (request.storing.bind (LinkOp.messageId codec)).toList

def LinkRequest.handLinks (request : LinkRequest) : List String :=
  request.urls.map ExtractedUrl.urlHash ++ (request.storing.bind (LinkOp.linkHash codec)).toList

def LinkState.messageHands (state : LinkState) : ℕ → Option (List String) :=
  state.requests.hands (LinkRequest.handMessages codec)

def LinkState.linkHands (state : LinkState) : ℕ → Option (List String) :=
  state.requests.hands (LinkRequest.handLinks codec)

/-- No other activity has the key in hand. -/
def Untaken (hands : ℕ → Option (List String)) (index : ℕ) (key : String) : Prop :=
  ∀ place other, place ≠ index → hands place = some other → key ∉ other

/-- What is looked up in vain is in no other hand; and the message that stands for a
submission is not there for another link. -/
def AloneLook (state : LinkState) : LinkAction → Prop
  | .look index => ∀ request op rest, state.requests.entry index = some request →
      request.phase = .looking → request.todo = op :: rest →
      op.found codec state request = false →
      (∀ messageId, op.messageId codec = some messageId →
        Untaken (state.messageHands codec) index messageId ∧
          messageId ∉ state.messages ++ request.messages) ∧
      ∀ hash, op.linkHash codec = some hash → Untaken (state.linkHands codec) index hash
  | _ => True

/-- The stored messages and links and those in hand are all different. -/
structure LinksDistinct (state : LinkState) : Prop where
  messages : Exclusive state.messages (state.messageHands codec)
  links : Exclusive (state.urls.map ExtractedUrl.urlHash) (state.linkHands codec)
  conflicts : state.conflicts = 0

end Hands

/-! ## Moving keys -/

/-- What an activity does with the keys in its hand: it stores some, keeps others, and takes
free ones. -/
structure Moves (stored : List String) (hands : ℕ → Option (List String)) (index : ℕ)
    (hand stores keeps : List String) : Prop where
  nodup : (stores ++ keeps).Nodup
  origin : ∀ key ∈ stores ++ keeps, key ∈ hand ∨ Exclusive.Free stored hands index key

section Moves

variable {hands : ℕ → Option (List String)}

/-- Keys that are neither lost nor taken. -/
theorem Moves.same (hexclusive : Exclusive stored hands) (hhand : hands index = some hand)
    (hsame : stores ++ keeps = hand) : Moves stored hands index hand stores keeps where
  nodup := hsame ▸ (hexclusive.own index hand hhand).1
  origin := fun _ hkey => .inl (hsame ▸ hkey)

theorem Moves.none : Moves stored hands index hand [] [] where
  nodup := List.nodup_nil
  origin := fun _ hkey => absurd hkey List.not_mem_nil

/-- A key that is taken. -/
theorem Moves.take (hexclusive : Exclusive stored hands) (hhand : hands index = some hand)
    (hfree : Exclusive.Free stored hands index key) (hnew : key ∉ hand) :
    Moves stored hands index hand [] (hand ++ [key]) where
  nodup := by
    rw [List.nil_append, ← List.concat_eq_append]
    exact (hexclusive.own index hand hhand).1.concat hnew
  origin := by
    intro other hkey
    rw [List.nil_append] at hkey
    rcases List.mem_append.mp hkey with hold | htaken
    · exact .inl hold
    · rw [List.mem_singleton.mp htaken]
      exact .inr hfree

end Moves

/-! ## The hands of the requests -/

section Keys

variable {keys : LinkRequest → List String}

theorem hands_entry (hrequest : state.requests.entry index = some request) :
    state.requests.hands keys index = some (keys request) := by
  unfold Slots.hands
  rw [hrequest]
  rfl

theorem Moves.exclusive (hexclusive : Exclusive stored (before.requests.hands keys))
    (hrequest : before.requests.entry index = some request)
    (hrequests : after.requests = before.requests.put index (some moved))
    (hmoves : Moves stored (before.requests.hands keys) index (keys request) stores
      (keys moved)) : Exclusive (stored ++ stores) (after.requests.hands keys) := by
  rw [hrequests]
  exact hexclusive.step (hands_entry hrequest) (Slots.hands_put_self hrequest _)
    (fun place hplace => Slots.hands_put_of_ne _ hplace) hmoves.nodup hmoves.origin

theorem exclusive_finish (hexclusive : Exclusive stored (before.requests.hands keys))
    (hrequest : before.requests.entry index = some request)
    (hrequests : after.requests = before.requests.put index none)
    (hown : List.Sublist stores (keys request)) :
    Exclusive (stored ++ stores) (after.requests.hands keys) := by
  rw [hrequests]
  exact hexclusive.finish (hands_entry hrequest) (Slots.hands_put_self hrequest _)
    (fun place hplace => Slots.hands_put_of_ne _ hplace)
    ((hexclusive.own index _ (hands_entry hrequest)).1.sublist hown)
    (fun key hkey => hown.subset hkey)

end Keys

variable {links messages : List String} {messageId : String}

/-- A step of a request that goes on. -/
theorem LinksDistinct.move (hdistinct : LinksDistinct codec before)
    (hrequest : before.requests.entry index = some request)
    (hrequests : after.requests = before.requests.put index (some moved))
    (hmessages : after.messages = before.messages ++ messages)
    (hlinks : after.urls.map ExtractedUrl.urlHash =
      before.urls.map ExtractedUrl.urlHash ++ links)
    (hconflicts : after.conflicts = before.conflicts)
    (hmoveMessages : Moves before.messages (before.messageHands codec) index
      (request.handMessages codec) messages (moved.handMessages codec))
    (hmoveLinks : Moves (before.urls.map ExtractedUrl.urlHash) (before.linkHands codec) index
      (request.handLinks codec) links (moved.handLinks codec)) :
    LinksDistinct codec after where
  messages := hmessages ▸ hmoveMessages.exclusive hdistinct.messages hrequest hrequests
  links := hlinks ▸ hmoveLinks.exclusive hdistinct.links hrequest hrequests
  conflicts := hconflicts.trans hdistinct.conflicts

/-- A request that ends, with its rows or without them. -/
theorem LinksDistinct.finish (hdistinct : LinksDistinct codec before)
    (hrequest : before.requests.entry index = some request)
    (hrequests : after.requests = before.requests.put index none)
    (hmessages : after.messages = before.messages ++ messages)
    (hlinks : after.urls.map ExtractedUrl.urlHash =
      before.urls.map ExtractedUrl.urlHash ++ links)
    (hconflicts : after.conflicts = before.conflicts)
    (hownMessages : List.Sublist messages (request.handMessages codec))
    (hownLinks : List.Sublist links (request.handLinks codec)) : LinksDistinct codec after where
  messages := hmessages ▸ exclusive_finish hdistinct.messages hrequest hrequests hownMessages
  links := hlinks ▸ exclusive_finish hdistinct.links hrequest hrequests hownLinks
  conflicts := hconflicts.trans hdistinct.conflicts

/-! ## Steps -/

variable {op : LinkOp}

section

variable (hdistinct : LinksDistinct codec before)
include hdistinct

/-- The keys that a request goes on with after it has looked in vain. -/
theorem LinksDistinct.take
    (hrequest : before.requests.entry index =
      some ⟨batch, op :: rest, .looking, stored, urls, posts⟩)
    (halone : AloneLook codec before (.look index))
    (hfound : op.found codec before ⟨batch, op :: rest, .looking, stored, urls, posts⟩ = false) :
    LinksDistinct codec (before.setRequest index
      (some ⟨batch, rest, .storing op, stored, urls, posts⟩)) := by
  obtain ⟨hmessage, hlink⟩ := halone _ op rest hrequest rfl rfl hfound
  have hmessages : LinkRequest.handMessages codec
    ⟨batch, op :: rest, .looking, stored, urls, posts⟩ =
      stored := List.append_nil _
  have hlinks : LinkRequest.handLinks codec ⟨batch, op :: rest, .looking, stored, urls, posts⟩ =
      urls.map ExtractedUrl.urlHash := List.append_nil _
  refine hdistinct.move hrequest rfl (List.append_nil _).symm (List.append_nil _).symm rfl ?_ ?_
  · change Moves _ _ _ _ _ (stored ++ (op.messageId codec).toList)
    cases hid : op.messageId codec with
    | none =>
      exact .same hdistinct.messages (hands_entry hrequest)
        ((List.append_nil stored).trans hmessages.symm)
    | some messageId =>
      obtain ⟨huntaken, hnew⟩ := hmessage messageId hid
      rw [List.mem_append, not_or] at hnew
      rw [hmessages]
      exact .take hdistinct.messages (hmessages ▸ hands_entry hrequest) ⟨hnew.1, huntaken⟩ hnew.2
  · change Moves _ _ _ _ _ (urls.map ExtractedUrl.urlHash ++ (op.linkHash codec).toList)
    cases hhash : op.linkHash codec with
    | none =>
      exact .same hdistinct.links (hands_entry hrequest) ((List.append_nil _).trans hlinks.symm)
    | some hash =>
      have hnew : ∀ row ∈ before.urls ++ urls, row.urlHash ≠ hash := by
        intro row hrow hsame
        cases op with
        | text | post | job | command => cases hhash
        | link rawUrl | submission door rawUrl =>
          cases hhash
          simp only [LinkOp.found, List.any_eq_false, decide_eq_true_eq] at hfound
          exact hfound row hrow hsame
      have habsent : ∀ rows ⊆ before.urls ++ urls, hash ∉ rows.map ExtractedUrl.urlHash := by
        intro rows hrows hmem
        obtain ⟨row, hrow, hsame⟩ := List.mem_map.mp hmem
        exact hnew row (hrows hrow) hsame
      rw [hlinks]
      exact .take hdistinct.links (hlinks ▸ hands_entry hrequest)
        ⟨habsent _ (List.subset_append_left _ _), hlink hash hhash⟩
        (habsent _ (List.subset_append_right _ _))

/-- A request that goes on with the same keys in hand. -/
theorem LinksDistinct.keep (hrequest : before.requests.entry index = some request)
    (hrequests : after.requests = before.requests.put index (some moved))
    (hmessages : after.messages = before.messages) (hurls : after.urls = before.urls)
    (hconflicts : after.conflicts = before.conflicts)
    (hsameMessages : moved.handMessages codec = request.handMessages codec)
    (hsameLinks : moved.handLinks codec = request.handLinks codec) :
    LinksDistinct codec after := by
  have hlinks : after.urls.map ExtractedUrl.urlHash =
      before.urls.map ExtractedUrl.urlHash ++ [] := by
    rw [hurls, List.append_nil]
  exact hdistinct.move hrequest hrequests (hmessages.trans (List.append_nil _).symm) hlinks
    hconflicts (.same hdistinct.messages (hands_entry hrequest) hsameMessages)
    (.same hdistinct.links (hands_entry hrequest) hsameLinks)

/-- A request that ends without a commit. -/
theorem LinksDistinct.fail (hrequest : before.requests.entry index = some request) :
    LinksDistinct codec (before.setRequest index none) := by
  exact hdistinct.finish hrequest rfl (List.append_nil _).symm (List.append_nil _).symm rfl
    (List.nil_sublist _) (List.nil_sublist _)

theorem LinksDistinct.look (hrequest : before.requests.entry index = some request)
    (halone : AloneLook codec before (.look index))
    (hstep : lookUp codec before index request = some after) : LinksDistinct codec after := by
  obtain ⟨batch, todo, phase, stored, urls, posts⟩ := request
  unfold lookUp at hstep
  split at hstep
  · next rest hphase htodo =>
    obtain rfl : phase = .looking := hphase
    cases hstep
    refine hdistinct.move hrequest rfl rfl List.map_append rfl ?_ ?_
    · exact .same hdistinct.messages (hands_entry hrequest) rfl
    · exact .same hdistinct.links (hands_entry hrequest) rfl
  · next rest hphase htodo =>
    obtain rfl : phase = .looking := hphase
    cases hstep
    exact hdistinct.move hrequest rfl (List.append_nil _).symm (List.append_nil _).symm rfl
      .none .none
  · cases hstep
  · next op rest _ _ _ hphase htodo =>
    obtain rfl : phase = .looking := hphase
    obtain rfl : todo = op :: rest := htodo
    cases hstep
    cases hfound : op.found codec before ⟨batch, op :: rest, .looking, stored, urls, posts⟩ with
    | true => exact hdistinct.keep hrequest rfl rfl rfl rfl rfl rfl
    | false => exact hdistinct.take hrequest halone hfound
  · cases hstep

theorem LinksDistinct.probe (hrequest : before.requests.entry index = some request)
    (hstep : probeJob before index request known = some after) : LinksDistinct codec after := by
  obtain ⟨batch, todo, phase, stored, urls, posts⟩ := request
  unfold probeJob at hstep
  split at hstep
  · next post rest hphase _ =>
    obtain rfl : phase = .looking := hphase
    cases hstep
    exact hdistinct.keep hrequest rfl rfl rfl rfl rfl rfl
  · cases hstep

theorem insertMessage_stored (hrequest : before.requests.entry index = some request)
    (hheld : messageId ∈ request.handMessages codec)
    (hinsert : before.insertMessage index messageId stored = some after) : after = stored := by
  have hown := hdistinct.messages.own index _ (hands_entry hrequest)
  unfold LinkState.insertMessage at hinsert
  rw [if_neg (hown.2 messageId hheld)] at hinsert
  exact (Option.some.inj (Option.ite_none_left_eq_some.mp hinsert).2).symm

theorem LinksDistinct.store (hrequest : before.requests.entry index = some request)
    (hstep : storeRow codec before index request = some after) : LinksDistinct codec after := by
  obtain ⟨batch, todo, phase, stored, urls, posts⟩ := request
  unfold storeRow at hstep
  split at hstep
  · next messageId rawUrls post hphase =>
    obtain rfl : phase = .storing (.text messageId rawUrls post) := hphase
    obtain rfl := insertMessage_stored hdistinct hrequest
      (List.mem_append_right stored (.head _)) hstep
    exact hdistinct.keep hrequest rfl rfl rfl rfl (List.append_nil _) rfl
  · next rawUrl hphase =>
    obtain rfl : phase = .storing (.link rawUrl) := hphase
    cases hstep
    refine hdistinct.keep hrequest rfl rfl rfl rfl rfl ?_
    exact (List.append_nil _).trans List.map_append
  · next post hphase =>
    obtain rfl : phase = .storing (.job post) := hphase
    cases hstep
    exact hdistinct.keep hrequest rfl rfl rfl rfl rfl rfl
  · next door rawUrl hphase =>
    obtain rfl : phase = .storing (.submission door rawUrl) := hphase
    obtain rfl := insertMessage_stored hdistinct hrequest
      (List.mem_append_right stored (.head _)) hstep
    exact hdistinct.keep hrequest rfl rfl rfl rfl (List.append_nil _)
      ((List.append_nil _).trans List.map_append)
  · cases hstep

theorem LinksDistinct.publish (hrequest : before.requests.entry index = some request)
    (hstep : publishTask before index request sent = some after) : LinksDistinct codec after := by
  obtain ⟨batch, todo, phase, stored, urls, posts⟩ := request
  unfold publishTask at hstep
  split at hstep
  · next urlId hphase =>
    obtain rfl : phase = .dispatching urlId := hphase
    split at hstep <;> cases hstep
    · exact hdistinct.keep hrequest rfl rfl rfl rfl rfl rfl
    · exact hdistinct.fail hrequest
  · next urlId rest hphase =>
    obtain rfl : phase = .publishing (urlId :: rest) := hphase
    split at hstep <;> cases hstep
    · exact hdistinct.keep hrequest rfl rfl rfl rfl rfl rfl
    · exact hdistinct.fail hrequest
  · cases hstep
    exact hdistinct.fail hrequest
  · cases hstep

theorem LinksDistinct.commit (hrequest : before.requests.entry index = some request)
    (hstep : commitRequest before index request = some after) : LinksDistinct codec after := by
  obtain ⟨batch, todo, phase, stored, urls, posts⟩ := request
  unfold commitRequest at hstep
  split at hstep
  · next hphase _ =>
    obtain rfl : phase = .looking := hphase
    split at hstep <;> cases hstep
    · exact hdistinct.finish hrequest rfl rfl List.map_append rfl (List.sublist_append_left _ _)
        (List.sublist_append_left _ _)
    · exact hdistinct.move hrequest rfl rfl List.map_append rfl
        (.same hdistinct.messages (hands_entry hrequest) rfl)
        (.same hdistinct.links (hands_entry hrequest) rfl)
  · cases hstep

/-- A new request has nothing in hand. -/
theorem LinksDistinct.receive :
    LinksDistinct codec { before with
      requests := before.requests.add ⟨batch, todo, .looking, [], [], []⟩ } where
  messages := hdistinct.messages.add fun _ _ hother => Slots.hands_add rfl hother
  links := hdistinct.links.add fun _ _ hother => Slots.hands_add rfl hother
  conflicts := hdistinct.conflicts

/-- A run changes neither the requests nor any message or link hash. -/
theorem LinksDistinct.of_same (hrequests : after.requests = before.requests)
    (hmessages : after.messages = before.messages)
    (hurls : after.urls.map ExtractedUrl.urlHash = before.urls.map ExtractedUrl.urlHash)
    (hconflicts : after.conflicts = before.conflicts) : LinksDistinct codec after where
  messages := by
    rw [LinkState.messageHands, hrequests, hmessages]
    exact hdistinct.messages
  links := by
    rw [LinkState.linkHands, hrequests, hurls]
    exact hdistinct.links
  conflicts := hconflicts.trans hdistinct.conflicts

end

theorem settleRow_urlHash (urlId : ℕ) (rows : List ExtractedUrl) :
    (rows.map (settleRow urlId)).map ExtractedUrl.urlHash = rows.map ExtractedUrl.urlHash := by
  rw [List.map_map]
  apply List.map_congr_left
  intro row _
  unfold Function.comp settleRow
  split <;> rfl

theorem linksDistinct_step (hdistinct : LinksDistinct codec before)
    (halone : AloneLook codec before action)
    (hstep : performLink codec before action = some after) : LinksDistinct codec after := by
  cases action with
  | deliver items =>
    cases hstep
    exact hdistinct.receive
  | submit door rawUrl =>
    cases hstep
    exact hdistinct.receive
  | look index =>
    obtain ⟨request, hrequest, hlook⟩ := Option.bind_eq_some_iff.mp hstep
    exact hdistinct.look hrequest halone hlook
  | probe index known =>
    obtain ⟨request, hrequest, hprobe⟩ := Option.bind_eq_some_iff.mp hstep
    exact hdistinct.probe hrequest hprobe
  | store index =>
    obtain ⟨request, hrequest, hstore⟩ := Option.bind_eq_some_iff.mp hstep
    exact hdistinct.store hrequest hstore
  | publish index sent =>
    obtain ⟨request, hrequest, hpublish⟩ := Option.bind_eq_some_iff.mp hstep
    exact hdistinct.publish hrequest hpublish
  | commit index =>
    obtain ⟨request, hrequest, hcommit⟩ := Option.bind_eq_some_iff.mp hstep
    exact hdistinct.commit hrequest hcommit
  | crash index =>
    obtain ⟨request, hrequest, rfl⟩ := Option.map_eq_some_iff.mp hstep
    exact hdistinct.fail hrequest
  | start urlId =>
    obtain ⟨_, hstarted⟩ := Option.ite_none_right_eq_some.mp hstep
    cases hstarted
    split <;> exact hdistinct.of_same rfl rfl rfl rfl
  | settle run =>
    obtain ⟨urlId, _, rfl⟩ := Option.map_eq_some_iff.mp hstep
    exact hdistinct.of_same rfl rfl (settleRow_urlHash urlId before.urls) rfl
  | endRun run retried =>
    obtain ⟨urlId, _, rfl⟩ := Option.map_eq_some_iff.mp hstep
    exact hdistinct.of_same rfl rfl rfl rfl

theorem linksDistinct_invariant :
    (linkSystem codec).Invariant (AloneLook codec) (LinksDistinct codec) where
  init := by
    rintro state rfl
    exact ⟨.nil fun _ => rfl, .nil fun _ => rfl, rfl⟩
  step := fun _ _ _ hdistinct halone hstep => linksDistinct_step hdistinct halone hstep

end JobApplyAgent.Intake
