import JobApplyAgent.Discovery.Posting
import JobApplyAgent.Library.Fallible
import JobApplyAgent.Library.Transition

/-!
# The alert mailbox

The Gmail source reads the messages of one label page by page.  The durable cursor holds
the newest date of the last finished listing and, within a listing, the token of its next
page.  A run may fail or crash between any two steps, and the next one starts from the
durable cursor.
-/

namespace JobApplyAgent.Discovery

open Library

/-- A message as the mail service stores it; dates are milliseconds. -/
structure AlertMessage where
  id : String
  internalDate : ℤ
  raw : String
  deriving DecidableEq

/-- A page token stands for the messages that the service still owes to its listing. -/
structure PageToken where
  owed : List AlertMessage

structure MailCursor where
  lastInternalDate : ℤ
  maxInternalDate : ℤ
  pageToken : Option PageToken
  lastSeenPostingAt : Option ℤ

def MailCursor.empty : MailCursor where
  lastInternalDate := 0
  maxInternalDate := 0
  pageToken := none
  lastSeenPostingAt := none

/-- The standard base64 decoder and the extraction of job anchors from a message, which
rests on the mail and HTML libraries; `none` is an exception. -/
structure AlertParser where
  decodeRaw : String → Option (List UInt8)
  extract : List UInt8 → String → ℤ → Option (List DiscoveredPosting)

inductive MailFailure
  | messageInvalid
  | alertInvalid
  | messageTooLarge
  | extraction

abbrev ParsedMessage := AlertMessage × List DiscoveredPosting

structure MailPage where
  messages : List ParsedMessage
  cursor : MailCursor

variable (parser : AlertParser)

/-- The checks on the details of one message. -/
def messageBytes (message : AlertMessage) : Except MailFailure (List UInt8) :=
  if message.internalDate ≤ 0 ∨ message.raw = "" then .error .messageInvalid
  else
    match parser.decodeRaw message.raw with
    | none => .error .alertInvalid
    | some [] => .error .messageInvalid
    | some bytes => .ok bytes

def parseJobAlertMessage (bytes : List UInt8) (message : AlertMessage) :
    Except MailFailure (List DiscoveredPosting) :=
  if 2000000 < bytes.length then .error .messageTooLarge
  else
    match parser.extract bytes message.id message.internalDate with
    | none => .error .extraction
    | some postings => .ok postings

/-- One row of a page; a row without an id is no message.  The newest date counts every
message, the postings only those that are newer than the last finished listing. -/
def readRow (last : ℤ) (state : ℤ × List ParsedMessage) :
    Option AlertMessage → Except MailFailure (ℤ × List ParsedMessage)
  | none => .ok state
  | some message => do
      let bytes ← messageBytes parser message
      let newest := max state.1 message.internalDate
      if message.internalDate ≤ last then
        return (newest, state.2)
      else
        let postings ← parseJobAlertMessage parser bytes message
        return (newest, state.2 ++ [(message, postings)])

/-- The newest date that the listing has seen before this page. -/
def MailCursor.newest (cursor : MailCursor) : ℤ :=
  if cursor.maxInternalDate = 0 then cursor.lastInternalDate else cursor.maxInternalDate

def pageCursor (cursor : MailCursor) (newest : ℤ) (token : Option PageToken) : MailCursor where
  lastInternalDate := if token.isSome then cursor.lastInternalDate else newest
  maxInternalDate := newest
  pageToken := token
  lastSeenPostingAt := if newest = 0 then cursor.lastSeenPostingAt else some newest

/-- What becomes of one page of the service. -/
def fetchGmailAlertPage (cursor : MailCursor) (rows : List (Option AlertMessage))
    (token : Option PageToken) : Except MailFailure MailPage := do
  let (newest, messages) ←
    rows.foldlM (readRow parser cursor.lastInternalDate) (cursor.newest, [])
  return { messages, cursor := pageCursor cursor newest token }

/-- The `after:` term of the query, in seconds. -/
def matchesQuery (last : ℤ) (message : AlertMessage) : Bool :=
  decide (last = 0) || decide (max 0 (last / 1000 - 1) ≤ message.internalDate / 1000)

/-- The listing that a cursor is in: the messages that it began with, and those that its
pages have contained so far.  The code keeps no such record. -/
structure Listing where
  begun : List AlertMessage
  served : List AlertMessage

def Listing.empty : Listing := ⟨[], []⟩

inductive MailRun
  | idle
  | fetching (cursor : MailCursor) (listing : Listing) (remaining : ℕ)
  | ingesting (page : MailPage) (listing : Listing) (remaining : ℕ)
  | saving (cursor : MailCursor) (listing : Listing) (remaining : ℕ)

/-- The labelled messages, the durable cursor with its listing, the run, the messages
whose postings were ingested, and the number of finished listings. -/
structure MailState where
  labelled : List AlertMessage
  cursor : MailCursor
  listing : Listing
  run : MailRun
  handed : List ParsedMessage
  finished : ℕ

inductive MailAction
  | arrive (message : AlertMessage)
  | begin (maxMessages : ℕ)
  | fetch (rows : List (Option AlertMessage)) (token : Option PageToken)
  | ingest
  | save
  | fail

/-- The message was parsed and its postings were ingested. -/
def MailState.Handed (state : MailState) (message : AlertMessage) : Prop :=
  message ∈ state.handed.map Prod.fst

/-- The messages that the service owes to the request of a cursor: those of its token, or
for a new listing all that match the query. -/
def owedMessages (labelled : List AlertMessage) (cursor : MailCursor) : List AlertMessage :=
  match cursor.pageToken with
  | some token => token.owed
  | none => labelled.filter (matchesQuery cursor.lastInternalDate)

/-- The listing after a page. -/
def nextListing (labelled : List AlertMessage) (cursor : MailCursor) (listing : Listing)
    (rows : List (Option AlertMessage)) : Listing :=
  match cursor.pageToken with
  | some _ => { listing with served := listing.served ++ rows.reduceOption }
  | none => ⟨owedMessages labelled cursor, rows.reduceOption⟩

/-- The loop goes on while the run may read more messages and the listing has a page. -/
def nextRun (cursor : MailCursor) (listing : Listing) (remaining : ℕ) : MailRun :=
  let rest := remaining - min 100 remaining
  if cursor.pageToken.isNone || rest == 0 then .idle else .fetching cursor listing rest

def performMail (state : MailState) : MailAction → Option MailState
  | .arrive message => some { state with labelled := message :: state.labelled }
  | .begin maxMessages =>
    match state.run with
    | .idle =>
      if maxMessages = 0 then none
      else some { state with run := .fetching state.cursor state.listing maxMessages }
    | _ => none
  | .fetch rows token =>
    match state.run with
    | .fetching cursor listing remaining =>
      match fetchGmailAlertPage parser cursor rows token with
      | .error _ => some { state with run := .idle }
      | .ok page =>
        some { state with
          run := .ingesting page (nextListing state.labelled cursor listing rows)
            remaining }
    | _ => none
  | .ingest =>
    match state.run with
    | .ingesting page listing remaining =>
      some { state with
        handed := state.handed ++ page.messages
        run := .saving page.cursor listing remaining }
    | _ => none
  | .save =>
    match state.run with
    | .saving cursor listing remaining =>
      some { state with
        cursor := cursor
        listing := listing
        finished := if cursor.pageToken.isNone then state.finished + 1 else state.finished
        run := nextRun cursor listing remaining }
    | _ => none
  | .fail => some { state with run := .idle }

/-- What the mail service promises: a page and its token cover what was owed, and hold
labelled messages only. -/
def Serves (state : MailState) : MailAction → Prop
  | .fetch rows token =>
    match state.run with
    | .fetching cursor _ _ =>
      (∀ message ∈ owedMessages state.labelled cursor,
        message ∈ rows.reduceOption ∨ ∃ rest ∈ token, message ∈ rest.owed) ∧
      (∀ message ∈ rows.reduceOption, message ∈ state.labelled) ∧
      ∀ rest ∈ token, ∀ message ∈ rest.owed, message ∈ state.labelled
    | _ => True
  | _ => True

def mailStart : MailState where
  labelled := []
  cursor := .empty
  listing := .empty
  run := .idle
  handed := []
  finished := 0

def mailSystem : TransitionSystem MailState MailAction where
  initial := fun state => state = mailStart
  step := fun before action after =>
    Serves before action ∧ performMail parser before action = some after

/-- Every run of the mailbox. -/
def anyMail (_ : MailState) (_ : MailAction) : Prop :=
  True

/-- The message passes the checks and is parsed without an exception. -/
def readable (message : AlertMessage) : Bool :=
  match messageBytes parser message with
  | .error _ => false
  | .ok bytes => (parseJobAlertMessage parser bytes message).toBool

/-- A message arrives readable and newer than the last finished listing; and what is still to be
ingested and was left out of a listing is, when it is finished, newer than all that its pages
contained. -/
def InOrder (state : MailState) : MailAction → Prop
  | .arrive message => readable parser message = true ∧
      state.cursor.lastInternalDate < message.internalDate
  | .save =>
    match state.run with
    | .saving cursor listing _ => cursor.pageToken = none →
        ∀ message ∈ state.labelled, ¬ state.Handed message → message ∉ listing.served →
          ∀ served ∈ listing.served, served.internalDate < message.internalDate
    | _ => True
  | _ => True

end JobApplyAgent.Discovery
