import JobApplyAgent.Bridge.ArchiveDedup
import JobApplyAgent.Ingestion.LinkExtraction
import JobApplyAgent.Library.Slots

/-!
# Forwarding links

The bridge takes messages from live chats and from rescans of archived ones.  Each message
has a handler that walks over its links one after the other, and the handlers share one
index of what was seen.  A link is marked as seen before its forward is asked for, whatever
becomes of the forward.
-/

namespace JobApplyAgent.Bridge

open Library Library.Regex

/-! ## What a message asks for -/

/-- What the runtime provides. -/
structure Platform (Digest : Type) where
  /-- `createHash('sha256')`. -/
  digest : List Char → Digest
  /-- `new URL(url).hostname`, none where the constructor throws. -/
  hostname : List Char → Option (List Char)
  toLowerCase : List Char → List Char

/-- The settings that decide what is forwarded. -/
structure Config where
  jobUrlOnly : Bool
  forwardTextPosts : Bool

structure Message where
  body : List Char
  quotedBody : List Char

/-- Known job board hostnames. -/
def jobHosts : List String :=
  ["greenhouse.io", "lever.co", "myworkdayjobs.com", "workday.com",
    "linkedin.com", "indeed.com", "glassdoor.com", "ziprecruiter.com",
    "angel.co", "wellfound.com", "otta.com", "remote.co", "weworkremotely.com",
    "jobvite.com", "icims.com", "smartrecruiters.com", "ashbyhq.com",
    "workable.com", "recruitee.com", "teamtailor.com", "bamboohr.com",
    "dover.com", "amazon.jobs", "careers.google.com", "careers.microsoft.com",
    "jobs.apple.com", "efinancialcareers.com", "totaljobs.com", "reed.co.uk",
    "cwjobs.co.uk", "jobsite.co.uk", "monster.co.uk", "cityjobs.com",
    "comeet.com", "comeet.co", "rippling.com", "dover.io"]

def shortHosts : List String :=
  ["bit.ly", "t.co", "goo.gl", "tinyurl.com", "ow.ly", "lnkd.in",
    "rb.gy", "cutt.ly", "buff.ly", "tiny.cc", "is.gd", "s.id"]

def textPostKeywords : List String :=
  ["hiring", "vacancy", "vacancies", "send cv", "send resume", "looking for",
    "we are recruiting", "job opening", "apply", "position",
    "مطلوب", "توظيف", "وظيفة", "شاغر"]

def includes (text part : List Char) : Bool :=
  decide (part <:+: text)

/-- `/\/(jobs?|careers?|apply|job-openings?)\//i`. -/
def jobPath : Regex :=
  let letters word := Regex.word Ingestion.sameLetterScript word
  let optionalS := Regex.optional (.char (Ingestion.sameLetterScript 's'))
  inOrder [.char (· == '/'),
    oneOf [.seq (letters "job".toList) optionalS, .seq (letters "career".toList) optionalS,
      letters "apply".toList, .seq (letters "job-opening".toList) optionalS],
    .char (· == '/')]

section Items

variable {Digest : Type} (platform : Platform Digest) (config : Config)

/-- The hostname without a leading `www.`. -/
def siteOf (url : List Char) : Option (List Char) :=
  (platform.hostname url).map fun host =>
    if "www.".toList.isPrefixOf host then host.drop 4 else host

def isJobUrl (url : List Char) : Bool :=
  (siteOf platform url).any fun host =>
    (jobHosts.any fun job => includes host job.toList) || jobPath.search url

def isShortUrl (url : List Char) : Bool :=
  (siteOf platform url).any fun host => shortHosts.any fun short => short.toList == host

def looksLikeJobText (text : List Char) : Bool :=
  textPostKeywords.any fun keyword => includes (platform.toLowerCase text) keyword.toList

/-- A link, or a message without one. -/
inductive Item where
  | url (link : List Char)
  | textPost (fullText : List Char)
  deriving DecidableEq

/-- Under what an item is seen. -/
def Item.dedupKey : Item → List Char
  | url link => link
  | textPost fullText => "text:".toList ++ fullText

def Message.fullText (message : Message) : List Char :=
  stripBy ScriptPattern.isSpace (message.body ++ '\n' :: message.quotedBody)

/-- The links that a handler does not pass over. -/
def forwardable (urls : List (List Char)) : List Item :=
  (urls.filter fun url =>
    !(config.jobUrlOnly && !isJobUrl platform url && !isShortUrl platform url)).map .url

def isTextPost (fullText : List Char) : Bool :=
  config.forwardTextPosts && !fullText.isEmpty && looksLikeJobText platform fullText

/-- What the handler of a live message walks over. -/
def processMessage (message : Message) : List Item :=
  let urls := Ingestion.bridgeExtractUrls message.fullText
  if urls.isEmpty then
    if isTextPost platform config message.fullText then [.textPost message.fullText] else []
  else forwardable platform config urls

def processArchiveMessage (message : Message) : List Item :=
  let urls := Ingestion.bridgeExtractUrls message.fullText
  forwardable platform config urls ++
    if urls.isEmpty && isTextPost platform config message.fullText then
      [.textPost message.fullText]
    else []

/-- Both paths walk over the same items. -/
theorem processArchiveMessage_eq (message : Message) :
    processArchiveMessage platform config message = processMessage platform config message := by
  rw [processArchiveMessage, processMessage]
  cases hurls : Ingestion.bridgeExtractUrls message.fullText with
  | nil => simp [forwardable]
  | cons url urls => simp

end Items

/-! ## Handlers -/

/-- A handler waits for its forward, or goes on with the items that remain. -/
structure Handler where
  remaining : List Item
  underWay : Option Item

/-- The shared index, the handlers, and which forwards have succeeded and failed. -/
structure Session (Digest : Type) where
  seenArchiveItems : SeenIndex Digest
  handlers : Slots Handler
  succeeded : List Item
  failed : List Item

/-- Handlers take turns in any order, and the clock may show anything. -/
inductive Event where
  | live (message : Message)
  | archived (message : Message)
  | turn (handler : ℕ) (lookedAt markedAt : ℤ)
  | answered (handler : ℕ) (ok : Bool)

section Session

variable {Digest : Type} [DecidableEq Digest]

def Session.start : Session Digest where
  seenArchiveItems := .empty
  handlers := []
  succeeded := []
  failed := []

variable (platform : Platform Digest) (config : Config) (limits : Limits)

/-- Look at the next item, and if it was not seen mark it and begin its forward. -/
def visit (session : Session Digest) (handler : ℕ) (item : Item) (remaining : List Item)
    (lookedAt markedAt : ℤ) : Session Digest :=
  let key := platform.digest item.dedupKey
  let looked := session.seenArchiveItems.has limits lookedAt key
  if looked.1 then
    { session with
      seenArchiveItems := looked.2
      handlers := session.handlers.put handler (some ⟨remaining, none⟩) }
  else
    { session with
      seenArchiveItems := looked.2.add limits markedAt key
      handlers := session.handlers.put handler (some ⟨remaining, some item⟩) }

def perform (session : Session Digest) : Event → Session Digest
  | .live message =>
    { session with
      handlers := session.handlers.add ⟨processMessage platform config message, none⟩ }
  | .archived message =>
    { session with
      handlers := session.handlers.add ⟨processArchiveMessage platform config message, none⟩ }
  | .turn handler lookedAt markedAt =>
    match session.handlers.entry handler with
    | some ⟨item :: remaining, none⟩ =>
      visit platform limits session handler item remaining lookedAt markedAt
    | _ => session
  | .answered handler ok =>
    match session.handlers.entry handler with
    | some ⟨remaining, some item⟩ =>
      { session with
        handlers := session.handlers.put handler (some ⟨remaining, none⟩)
        succeeded := if ok then item :: session.succeeded else session.succeeded
        failed := if ok then session.failed else item :: session.failed }
    | _ => session

def performAll (events : List Event) : Session Digest :=
  events.foldl (perform platform config limits) .start

end Session

end JobApplyAgent.Bridge
