import JobApplyAgent.Library.Slots
import JobApplyAgent.Library.Transition

/-!
# Job links and their doors

Links arrive in webhook deliveries, through the ingest route of the bridge and the
dashboard, and through the link route.  A request looks a message or a link up, stores its
row, publishes the task that processes it, and commits; its rows are not visible to others
before the commit.  A delivery publishes before its commit, the other doors after it.  A message
without a link may be a job post itself: its job is stored under a message id of its own.  Any
request, publication or run may fail.
-/

namespace JobApplyAgent.Intake

open Library

structure ExtractedUrl where
  id : ℕ
  urlHash : String
  pending : Bool
  deriving DecidableEq

/-- How a command, a button or a document in a batch ends the transaction that the whole
batch shares. -/
inductive CommandEffect
  | none
  | commits
  | rollsBack
  deriving DecidableEq

/-- A text that reads as a job and was parsed as one: the digest of the text and its sender, the
trimmed texts of the job, and its score. -/
structure TextPost where
  digest : String
  title : String
  company : String
  description : String
  score : Rat
  skipped : Bool
  deriving DecidableEq

/-- The local message id of a text post. -/
def TextPost.messageId (post : TextPost) : String :=
  "whatsapp-text-" ++ String.ofList (post.digest.toList.take 32)

/-- One message of an allowed sender in a delivery. -/
inductive BatchItem
  | text (messageId : String) (rawUrls : List String) (post : Option TextPost)
  | command (effect : CommandEffect)

/-- The routes that take one link. -/
inductive SubmissionDoor
  | ingest
  | whatsappLink
  deriving DecidableEq

inductive LinkOp
  | text (messageId : String) (rawUrls : List String) (post : Option TextPost)
  | link (rawUrl : String)
  /-- The signature of a text post is to be looked up among the jobs. -/
  | post (post : TextPost)
  /-- The job of a text post is to be stored. -/
  | job (post : TextPost)
  | command (effect : CommandEffect)
  | submission (door : SubmissionDoor) (rawUrl : String)
  deriving DecidableEq

inductive LinkPhase
  | looking
  /-- Nothing was found for the operation. -/
  | storing (op : LinkOp)
  /-- A stored link of a delivery is published before the commit. -/
  | dispatching (urlId : ℕ)
  /-- The committed links of a submission are published. -/
  | publishing (urlIds : List ℕ)
  deriving DecidableEq

/-- A running request with its uncommitted rows. -/
structure LinkRequest where
  /-- The text messages of a delivery. -/
  batch : Option (List String)
  todo : List LinkOp
  phase : LinkPhase
  messages : List String
  urls : List ExtractedUrl
  posts : List TextPost

structure LinkState where
  messages : List String
  urls : List ExtractedUrl
  /-- The text posts whose jobs are stored. -/
  posts : List TextPost
  nextUrl : ℕ
  /-- The published tasks that have not started, each with its link. -/
  queue : List ℕ
  requests : Slots LinkRequest
  /-- The runs that have read their link. -/
  runs : Slots ℕ
  /-- The text messages of the deliveries that were answered with 200. -/
  answered : List (List String)
  /-- The requests that have failed on a message that is there already. -/
  conflicts : ℕ

inductive LinkAction
  | deliver (items : List BatchItem)
  | submit (door : SubmissionDoor) (rawUrl : String)
  | look (index : ℕ)
  /-- A job with the signature of the next text post is there, or it is not. -/
  | probe (index : ℕ) (known : Bool)
  | store (index : ℕ)
  | publish (index : ℕ) (sent : Bool)
  | commit (index : ℕ)
  | crash (index : ℕ)
  | start (urlId : ℕ)
  /-- The first commit of a run. -/
  | settle (run : ℕ)
  | endRun (run : ℕ) (retried : Bool)

def BatchItem.op : BatchItem → LinkOp
  | .text messageId rawUrls post => .text messageId rawUrls post
  | .command effect => .command effect

def BatchItem.textId : BatchItem → Option String
  | .text messageId _ _ => some messageId
  | .command _ => none

/-- What follows a stored text message: its links, or the post that a text without one is. -/
def textOps (rawUrls : List String) (post : Option TextPost) : List LinkOp :=
  if rawUrls.isEmpty then (post.map LinkOp.post).toList else rawUrls.map LinkOp.link

/-- The digest of the normalized link, and the message id that stands for a submission. -/
structure LinkCodec where
  normalizeUrl : String → String
  urlHash : String → String
  submissionId : SubmissionDoor → String → String

variable (codec : LinkCodec)

def LinkCodec.linkHash (rawUrl : String) : String :=
  codec.urlHash (codec.normalizeUrl rawUrl)

/-- The message that an operation stores. -/
def LinkOp.messageId : LinkOp → Option String
  | .text messageId _ _ => some messageId
  | .submission door rawUrl => some (codec.submissionId door (codec.linkHash rawUrl))
  | .link _ | .post _ | .job _ | .command _ => none

/-- The link that an operation stores. -/
def LinkOp.linkHash : LinkOp → Option String
  | .link rawUrl | .submission _ rawUrl => some (codec.linkHash rawUrl)
  | .text .. | .post _ | .job _ | .command _ => none

def receiveMessage (items : List BatchItem) : LinkRequest where
  batch := some (items.filterMap BatchItem.textId)
  todo := items.map BatchItem.op
  phase := .looking
  messages := []
  urls := []
  posts := []

def submitLink (door : SubmissionDoor) (rawUrl : String) : LinkRequest where
  batch := none
  todo := [.submission door rawUrl]
  phase := .looking
  messages := []
  urls := []
  posts := []

section Request

variable (state : LinkState) (index : ℕ) (request : LinkRequest)

def LinkState.setRequest (request : Option LinkRequest) : LinkState :=
  { state with requests := state.requests.put index request }

/-- The operation finds its message or its link, among the committed rows and its own. -/
def LinkOp.found : LinkOp → Bool
  | .text messageId _ _ =>
    decide (messageId ∈ state.messages) || decide (messageId ∈ request.messages)
  | .link rawUrl | .submission _ rawUrl =>
    (state.urls ++ request.urls).any fun row => row.urlHash = codec.linkHash rawUrl
  | .post _ | .job _ => false
  | .command _ => true

/-- The rows of a request become visible. -/
def LinkState.commitRows : LinkState :=
  { state with
    messages := state.messages ++ request.messages
    urls := state.urls ++ request.urls
    posts := state.posts ++ request.posts }

def LinkRequest.clear : LinkRequest :=
  { request with messages := [], urls := [], posts := [] }

def lookUp : Option LinkState :=
  match request.phase, request.todo with
  | .looking, .command .commits :: rest =>
    some ((state.commitRows request).setRequest index
      (some { request.clear with todo := rest }))
  | .looking, .command .rollsBack :: rest =>
    some (state.setRequest index (some { request.clear with todo := rest }))
  | .looking, .post _ :: _ => none
  | .looking, op :: rest =>
    some (state.setRequest index (some { request with
      todo := rest
      phase := if op.found codec state request then .looking else .storing op }))
  | _, _ => none

/-- A text post whose job is not there yet stores its message, if it has none, and its job. -/
def probeJob (known : Bool) : Option LinkState :=
  match request.phase, request.todo with
  | .looking, .post post :: rest =>
    some (state.setRequest index (some { request with
      todo := if known then rest else .text post.messageId [] none :: .job post :: rest }))
  | _, _ => none

/-- Another request has stored the message and not committed it. -/
def LinkState.messageHeld (messageId : String) : Bool :=
  (state.requests.put index none).any fun other =>
    other.any fun other => decide (messageId ∈ other.messages)

/-- A message or a link is there before it is stored: the request fails, or it waits. -/
def LinkState.insertMessage (messageId : String) (stored : LinkState) : Option LinkState :=
  if messageId ∈ state.messages then
    some { state.setRequest index none with conflicts := state.conflicts + 1 }
  else if state.messageHeld index messageId then none
  else some stored

def newUrl (rawUrl : String) : ExtractedUrl :=
  ⟨state.nextUrl, codec.linkHash rawUrl, true⟩

def storeRow : Option LinkState :=
  match request.phase with
  | .storing (.text messageId rawUrls post) =>
    state.insertMessage index messageId (state.setRequest index (some { request with
      todo := textOps rawUrls post ++ request.todo
      phase := .looking
      messages := request.messages ++ [messageId] }))
  | .storing (.link rawUrl) =>
    some { state.setRequest index (some { request with
        phase := .dispatching state.nextUrl
        urls := request.urls ++ [newUrl codec state rawUrl] }) with
      nextUrl := state.nextUrl + 1 }
  | .storing (.job post) =>
    some (state.setRequest index (some { request with
      phase := .looking
      posts := request.posts ++ [post] }))
  | .storing (.submission door rawUrl) =>
    let messageId := codec.submissionId door (codec.linkHash rawUrl)
    state.insertMessage index messageId
      { state.setRequest index (some { request with
          phase := .looking
          messages := request.messages ++ [messageId]
          urls := request.urls ++ [newUrl codec state rawUrl] }) with
        nextUrl := state.nextUrl + 1 }
  | _ => none

/-- Publish the next task; a request whose publication fails is not answered with 200. -/
def publishTask (sent : Bool) : Option LinkState :=
  match request.phase with
  | .dispatching urlId =>
    if sent then
      some { state.setRequest index (some { request with phase := .looking }) with
        queue := state.queue ++ [urlId] }
    else some (state.setRequest index none)
  | .publishing (urlId :: rest) =>
    if sent then
      some { state.setRequest index (some { request with phase := .publishing rest }) with
        queue := state.queue ++ [urlId] }
    else some (state.setRequest index none)
  | .publishing [] => some (state.setRequest index none)
  | _ => none

/-- The last commit of a request: a delivery is answered, a submission goes on to publish. -/
def commitRequest : Option LinkState :=
  match request.phase, request.todo with
  | .looking, [] =>
    let committed := state.commitRows request
    match request.batch with
    | some textIds =>
      some { committed.setRequest index none with
        answered := state.answered ++ [textIds] }
    | none =>
      some (committed.setRequest index (some { request.clear with
        phase := .publishing (request.urls.map ExtractedUrl.id) }))
  | _, _ => none

end Request

/-- A run commits the status of its link. -/
def settleRow (urlId : ℕ) (row : ExtractedUrl) : ExtractedUrl :=
  if row.id = urlId then { row with pending := false } else row

def performLink (state : LinkState) : LinkAction → Option LinkState
  | .deliver items => some { state with requests := state.requests.add (receiveMessage items) }
  | .submit door rawUrl =>
    some { state with requests := state.requests.add (submitLink door rawUrl) }
  | .look index => (state.requests.entry index).bind (lookUp codec state index)
  | .probe index known =>
    (state.requests.entry index).bind fun request => probeJob state index request known
  | .store index => (state.requests.entry index).bind (storeRow codec state index)
  | .publish index sent =>
    (state.requests.entry index).bind fun request => publishTask state index request sent
  | .commit index => (state.requests.entry index).bind (commitRequest state index)
  | .crash index => (state.requests.entry index).map fun _ => state.setRequest index none
  | .start urlId =>
    if urlId ∈ state.queue then
      let state := { state with queue := state.queue.erase urlId }
      -- a run that does not find its link ends at once
      some (if state.urls.any fun row => row.id = urlId then
        { state with runs := state.runs.add urlId }
      else state)
    else none
  | .settle run =>
    (state.runs.entry run).map fun urlId =>
      { state with urls := state.urls.map (settleRow urlId) }
  | .endRun run retried =>
    (state.runs.entry run).map fun urlId =>
      { state with
        runs := state.runs.put run none
        queue := if retried then state.queue ++ [urlId] else state.queue }

def noLinks : LinkState where
  messages := []
  urls := []
  posts := []
  nextUrl := 0
  queue := []
  requests := []
  runs := []
  answered := []
  conflicts := 0

def linkSystem : TransitionSystem LinkState LinkAction where
  initial := fun state => state = noLinks
  step before action after := performLink codec before action = some after

/-- Every run. -/
def anyLinkStep (_ : LinkState) (_ : LinkAction) : Prop :=
  True

end JobApplyAgent.Intake
