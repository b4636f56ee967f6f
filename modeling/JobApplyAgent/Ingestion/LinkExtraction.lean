import JobApplyAgent.Library.Findall
import JobApplyAgent.Library.QueryString
import JobApplyAgent.Library.ScriptPattern

/-!
# Links of a message

The three extractors of links: the one of the ingestion, the one of the webhook and the one
of the bridge.  They differ in what they take for formatting, in the characters that end a
link, and in what they take off its end.
-/

namespace JobApplyAgent.Ingestion

open Library Library.QueryString

/-! ## The extractors -/

/-- How an extractor reads a text. -/
structure LinkReader where
  /-- Formatting, replaced by a space before links are looked for. -/
  formats : Char → Bool
  /-- Letters of the scheme, when case is ignored. -/
  sameLetter : Char → Char → Bool
  /-- The class that a link has no character of. -/
  excludes : Char → Bool
  /-- What is taken off the end of a link. -/
  trims : Char → Bool

/-- `_WA_FORMAT_RE`, and the first pattern of the bridge. -/
def isFormatting (character : Char) : Bool :=
  ['*', '_', '~', '`'].contains character

def zeroWidth : List Char := ['\u200b', '\u200c', '\u200d', '\ufeff']

/-- Without flags for it, the scripting language of browsers folds letters of the first
script only. -/
def sameLetterScript (letter character : Char) : Bool :=
  character.toLower == letter

/-- `re.IGNORECASE` also takes the long s for an s. -/
def sameLetterPython (letter character : Char) : Bool :=
  character.toLower == letter || letter == 's' && character == 'ſ'

/-- `_URL_RE` and `_TRAIL_JUNK`. -/
def urlUtilsReader : LinkReader where
  formats := isFormatting
  sameLetter := sameLetterPython
  excludes character := isSpace character
    || ['<', '>', '"', '\'', ')', ']', '}', ',', ';', '|'].contains character
    || zeroWidth.contains character
  trims character := ['.', ',', ';', ':', '!', '?', ')', ']'].contains character

/-- `URL_PATTERN`; formatting is not looked at, and a closing bracket is not taken off. -/
def webhookReader : LinkReader where
  formats _ := false
  sameLetter := sameLetterPython
  excludes character := isSpace character
    || ['<', '>', '"', '\'', ')', ']', '}', ',', ';'].contains character
  trims character := ['.', ',', ';', ':', '!', '?', ')'].contains character

/-- `URL_RE` and `TRAIL`. -/
def bridgeReader : LinkReader where
  formats := isFormatting
  sameLetter := sameLetterScript
  excludes character := ScriptPattern.isSpace character
    || ['<', '>', '"', '\'', ')', ']', '}', ',', ';', '|'].contains character
    || zeroWidth.contains character
  trims character := ['.', ',', ';', ':', '!', '?', ')', ']'].contains character

namespace LinkReader

variable (reader : LinkReader)

def cleaned (text : List Char) : List Char :=
  text.map fun character => if reader.formats character then ' ' else character

/-- `https?://`. -/
def schemePattern : Regex :=
  .seq (Regex.word reader.sameLetter "http".toList)
    (.seq (Regex.optional (.char (reader.sameLetter 's'))) (Regex.word (· == ·) "://".toList))

/-- `https?://[^...]+`. -/
def urlPattern : Regex :=
  .seq reader.schemePattern (Regex.many1 (.char fun character => !reader.excludes character))

/-- What the pattern finds in the text without formatting. -/
def found (text : List Char) : List (List Char) :=
  reader.urlPattern.findall (reader.cleaned text)

end LinkReader

def cleanUrl (raw : List Char) : List Char :=
  (raw.rdropWhile urlUtilsReader.trims).rdropWhile fun character =>
    ['\u200b', '\u200c', '\u200d'].contains character

/-- The scheme is followed by the escape of a colon, in letters of either case. -/
def hasEncodedScheme (url : List Char) : Bool :=
  "https%3a".toList.isPrefixOf (url.map Char.toLower)
    || "http%3a".toList.isPrefixOf (url.map Char.toLower)

def decodeIfEncoded (url : List Char) : List Char :=
  if hasEncodedScheme url then unquote url else url

/-- The different links, in the order in which they first occur. -/
def distinctLinks (links : List (List Char)) : List (List Char) :=
  (links.filter fun link => !link.isEmpty).eraseDups

def extractUrls (text : List Char) : List (List Char) :=
  if text.isEmpty then []
  else distinctLinks ((urlUtilsReader.found text).map fun raw => decodeIfEncoded (cleanUrl raw))

/-- `extract_urls` of the webhook. -/
def webhookExtractUrls (text : List Char) : List (List Char) :=
  if text.isEmpty then []
  else distinctLinks ((webhookReader.found text).map fun raw => raw.rdropWhile webhookReader.trims)

/-- `extractUrls` of the bridge. -/
def bridgeExtractUrls (text : List Char) : List (List Char) :=
  if text.isEmpty then []
  else distinctLinks ((bridgeReader.found text).map fun raw => raw.rdropWhile bridgeReader.trims)

/-! ## Messages -/

/-- `https?://` at the beginning of a text, and what stands behind it. -/
def dropScheme (same : Char → Char → Bool) (text : List Char) : Option (List Char) :=
  (Regex.dropWord same "http".toList text).bind fun rest =>
    ((Regex.dropWord (fun _ => same 's') [' '] rest).bind
      (Regex.dropWord (· == ·) "://".toList)).or (Regex.dropWord (· == ·) "://".toList rest)

/-- A character that a link may have: none that any of the extractors excludes. -/
def isLinkCharacter (character : Char) : Bool :=
  !(isSpace character || ScriptPattern.isSpace character || zeroWidth.contains character
    || ['<', '>', '"', '\'', ')', ']', '}', ',', ';', '|'].contains character)

/-- A piece of a link has no excluded character and does not end with trailing junk. -/
structure WellSpelled (url : List Char) : Prop where
  characters : ∀ character ∈ url, isLinkCharacter character = true
  ending : ∀ character, url.getLast? = some character → urlUtilsReader.trims character = false

/-- An http or https address. -/
structure IsLink (url : List Char) : Prop extends WellSpelled url where
  scheme : ∃ rest, rest ≠ [] ∧ dropScheme sameLetterScript url = some rest

/-- An address whose scheme separator is escaped, and in which no other address begins. -/
structure IsEncodedLink (url : List Char) : Prop extends WellSpelled url where
  encoded : hasEncodedScheme url = true
  alone : ∀ tail, tail <:+ url → dropScheme sameLetterPython tail = none

/-- A message consists of links, bare or between two markers of one kind, and of other
text. -/
inductive Passage where
  | plain (text : List Char)
  | bare (url : List Char)
  | marked (mark : Char) (url : List Char)

namespace Passage

def text : Passage → List Char
  | plain text => text
  | bare url => url
  | marked mark url => mark :: url ++ [mark]

def url : Passage → Option (List Char)
  | plain _ => none
  | bare url => some url
  | marked _ url => some url

/-- Other text has no address in it, with an escaped separator or without. -/
structure IsPlain (text : List Char) : Prop where
  unlinked : ∀ tail, tail <:+ text → dropScheme sameLetterScript tail = none
  unencoded : ∀ tail, tail <:+ text → hasEncodedScheme tail = false

def WellFormed : Passage → Prop
  | plain text => IsPlain text
  | bare url => IsLink url ∨ IsEncodedLink url
  | marked mark url => isFormatting mark = true ∧ (IsLink url ∨ IsEncodedLink url)

/-- Spaces and line breaks. -/
def isBreak (character : Char) : Bool :=
  [' ', '\n', '\r'].contains character

/-- A bare link stands between breaks. -/
def Adjoins : Passage → Passage → Prop
  | plain text, bare _ => text.getLast?.any isBreak = true
  | bare _, plain text => text.head?.any isBreak = true
  | plain _, marked _ _ => True
  | marked _ _, plain _ => True
  | marked _ _, marked _ _ => True
  | _, _ => False

end Passage

def message (passages : List Passage) : List Char :=
  passages.flatMap Passage.text

/-- Every link of the message stands between breaks or markers. -/
structure Standing (passages : List Passage) : Prop where
  wellFormed : ∀ passage ∈ passages, passage.WellFormed
  adjoins : passages.IsChain Passage.Adjoins

/-- The links of a message, an escaped one decoded. -/
def linksOf (passages : List Passage) : List (List Char) :=
  ((passages.filterMap Passage.url).map decodeIfEncoded).eraseDups

/-- Every extractor returns exactly the links of the message. -/
structure ExtractsAll (passages : List Passage) : Prop where
  ingested : extractUrls (message passages) = linksOf passages
  bridged : bridgeExtractUrls (message passages) = extractUrls (message passages)
  received : webhookExtractUrls (message passages) = extractUrls (message passages)

/-! ## Where the extractors agree -/

/-- An address spelled with a long s, which one of two languages takes for an s. -/
def beginsLongLink (text : List Char) : Bool :=
  (dropScheme sameLetterScript text).isNone
    && (dropScheme sameLetterPython text).any fun rest =>
      rest.head?.any fun character => !webhookReader.excludes character

/-- No address with a long s begins in the other text of the message. -/
def NoLongLink : List Passage → Prop
  | [] => True
  | .plain text :: rest =>
    (∀ tail, tail <:+ text → tail ≠ [] → beginsLongLink (tail ++ message rest) = false) ∧
      NoLongLink rest
  | _ :: rest => NoLongLink rest

/-- No link has a formatting character in it or around it, escaped links add nothing to the
links of the message, and no address is spelled with a long s. -/
structure Unformatted (passages : List Passage) : Prop where
  inside : ∀ url ∈ passages.filterMap Passage.url, hasEncodedScheme url = false →
    ∀ character ∈ url, isFormatting character = false
  around : ∀ mark url, Passage.marked mark url ∈ passages → hasEncodedScheme url = true
  decoded : linksOf passages =
    linksOf (passages.filter fun passage => !passage.url.any hasEncodedScheme)
  noLong : NoLongLink passages

end JobApplyAgent.Ingestion
