import JobApplyAgent.Library.Regex
import JobApplyAgent.Library.Text

/-!
# Patterns of generated prose

The expressions by which the claim validator splits prose and recognises
factual, negated, uncertain and prohibited text.  A space in a phrase stands for
any number of blanks.
-/

namespace JobApplyAgent.Materials

open Library Regex

variable (table : CharacterTable)

/-! ## Words -/

def boundary : Regex := .assert (wordBoundary table)

def blank : Regex := .char table.isBlank

/-- A phrase whose case is ignored. -/
def anyCase (letters : String) : Regex :=
  Regex.phrase table.sameLetter table.isBlank letters

/-- A phrase whose case counts. -/
def exact (letters : String) : Regex :=
  Regex.phrase (· == ·) table.isBlank letters

def anyCaseOf (phrases : List String) : Regex :=
  oneOf (phrases.map (anyCase table))

def exactOf (phrases : List String) : Regex :=
  oneOf (phrases.map (exact table))

def stem (suffix letters : String) : Regex :=
  inOrder [anyCase table letters, optional (anyCase table suffix)]

def member (characters : List Char) : Regex :=
  .char fun character => characters.contains character

def between (first last character : Char) : Bool :=
  decide (first ≤ character ∧ character ≤ last)

def hebrewWord (character : Char) : Bool :=
  table.isWord character || decide (0x590 ≤ character.toNat ∧ character.toNat ≤ 0x5ff)

def noHebrewBefore : Regex :=
  .assert fun place => !precededBy (hebrewWord table) place

def noHebrewAfter : Regex := .notAhead (.char (hebrewWord table))

/-- `\d+(?:[.,]\d+)?`. -/
def decimal : Regex :=
  inOrder [many1 (.char table.isDigit),
    optional (inOrder [member ['.', ','], many1 (.char table.isDigit)])]

/-! ## Splitting -/

def spaceRe : Regex := many1 (blank table)

def sentenceRe : Regex :=
  .either
    (.seq (.assert (precededBy fun character => ['.', '!', '?'].contains character))
      (many1 (blank table)))
    (many1 (member ['\n']))

def conjunctions : List String := ["and", "but", "while", "whereas", "plus"]

def clauseRe : Regex :=
  .either
    (inOrder [many1 (blank table), anyCaseOf table conjunctions, many1 (blank table)])
    (member [';', ':'])

def leadingConjunctionRe : Regex :=
  inOrder [.assert atStart, exactOf table conjunctions, many1 (blank table)]

def headingMarkerRe : Regex := many1 (member ['-', '—', '–', '•', '*', '▪', '◦', '‣'])

/-! ## Facts -/

def numberRe : Regex :=
  inOrder [.assert fun place => !precededBy table.isWord place, decimal table,
    optional (member ['%']), .notAhead (.char table.isWord)]

def firstPersonRe : Regex :=
  inOrder [boundary table, anyCaseOf table ["I", "I've", "I’m", "I'm", "my", "mine", "me"],
    boundary table]

def hebrewFirstPersonRe : Regex :=
  inOrder [noHebrewBefore table, exactOf table ["אני", "שלי", "יש לי"], noHebrewAfter table]

def impliedCandidateRe : Regex :=
  .either
    (inOrder [.assert atStart, optional (inOrder [stem table "n" "a", many1 (blank table)]),
      anyCaseOf table ["experienced", "skilled", "proficient", "certified", "licensed"],
      boundary table])
    (inOrder [.assert atStart, anyCase table "with ", decimal table, anyCase table " year",
      optional (anyCase table "s"), boundary table])

def accomplishments : List String :=
  ["built", "created", "delivered", "designed", "developed", "drove", "earned",
    "implemented", "improved", "launched", "led", "managed", "optimized", "owned",
    "reduced", "scaled", "studied", "worked"]

def factualMarkerRe : Regex :=
  inOrder [boundary table,
    oneOf [anyCaseOf table accomplishments,
      anyCaseOf table ["background", "degree", "experience", "expertise", "skill", "proficien"],
      stem table "s" "year", anyCaseOf table ["%", "possess"], stem table "s" "hold",
      anyCaseOf table ["has", "phd", "doctorate", "bachelor"], stem table "'s" "master",
      anyCaseOf table ["seasoned", "leader"], stem table "s" "week", stem table "s" "month",
      stem table "s" "day",
      anyCaseOf table ["salary", "compensation", "notice", "available", "immediate", "based",
        "located", "relocat", "start date"]],
    boundary table]

def properName : Regex :=
  inOrder [.char (between 'A' 'Z'),
    .repeated (.char fun character => between 'A' 'Z' character || between 'a' 'z' character
      || "'’.-".toList.contains character) 1 (some 40)]

def thirdPersonCandidateRe : Regex :=
  inOrder [.assert atStart,
    .notAhead (inOrder [exactOf table ["The", "This", "That", "Our", "Your", "Company", "Role",
      "Team", "Job"], boundary table]),
    properName, .repeated (inOrder [many1 (blank table), properName]) 0 (some 3),
    many1 (blank table),
    exactOf table (["has", "is", "was", "brings", "possesses"] ++ accomplishments),
    boundary table]

def employerContextRe : Regex :=
  inOrder [.assert atStart, anyCaseOf table ["the", "this", "that", "our", "your"],
    many1 (blank table),
    anyCaseOf table ["company", "role", "team", "job", "position", "organization",
      "organisation", "mission", "product"],
    boundary table]

/-- A Hebrew verb with its endings of the first and of the third person. -/
def hebrewVerb (letters : String) : Regex :=
  inOrder [exact table letters, optional (exactOf table ["תי", "ה"])]

def hebrewFactualMarkerRe : Regex :=
  inOrder [noHebrewBefore table,
    oneOf [exact table "ניסיון", inOrder [exact table "שנו", optional (exact table "ת")],
      inOrder [exact table "מהנדס", optional (exact table "ת")],
      inOrder [exact table "מפתח", optional (exact table "ת")],
      hebrewVerb table "ניהל", hebrewVerb table "הובל", hebrewVerb table "פיתח",
      exactOf table ["בניתי", "בנה", "בנתה"], hebrewVerb table "יצר",
      hebrewVerb table "יישמ", hebrewVerb table "שיפר", hebrewVerb table "עבד",
      hebrewVerb table "למד", exactOf table ["תואר", "מומחיות", "מיומנות"]],
    noHebrewAfter table]

/-! ## Safe fragments -/

def closing : Regex := inOrder [optional (member ['.', '!']), .assert atEnd]

def safeHebrewSubjectiveFragmentRe : Regex :=
  inOrder [.assert atStart,
    oneOf [
      inOrder [exact table "אני ", exactOf table ["מתרגש", "מתרגשת", "נלהב", "נלהבת"],
        many1 (blank table), exactOf table ["מהתפקיד", "מההזדמנות"]],
      inOrder [exact table "אני ", exactOf table ["מעוניין", "מעוניינת"],
        many1 (blank table), exactOf table ["בתפקיד", "בהזדמנות"]],
      exact table "אשמח לתרום",
      exact table "אני מקווה ללמוד עוד על התפקיד"],
    closing]

/-- `(?:this|the)\s+(?:role|opportunity|position)`. -/
def thisRole : Regex :=
  inOrder [anyCaseOf table ["this", "the"], many1 (blank table),
    anyCaseOf table ["role", "opportunity", "position"]]

def safeSubjectiveFragmentRe : Regex :=
  inOrder [.assert atStart,
    oneOf [
      inOrder [anyCase table "i am ", anyCaseOf table ["excited", "eager", "motivated"],
        anyCase table " about ", thisRole table],
      inOrder [anyCase table "i am interested in ",
        optional (anyCase table "learning more about "), thisRole table],
      inOrder [anyCase table "i ", anyCaseOf table ["am eager", "would be pleased"],
        anyCase table " to contribute"],
      anyCase table "i would welcome the opportunity to contribute",
      inOrder [anyCase table "i look forward to ",
        .either (anyCase table "learning more")
          (inOrder [anyCase table "discussing ", thisRole table])]],
    closing]

def safeNonfactualFragmentRe : Regex :=
  inOrder [.assert atStart,
    oneOf [
      inOrder [anyCase table "dear ",
        anyCaseOf table ["hiring", "recruiting", "talent", "selection"], many1 (blank table),
        anyCaseOf table ["team", "manager", "committee"]],
      inOrder [anyCaseOf table ["hello", "hi"],
        optional (inOrder [many1 (blank table),
          anyCaseOf table ["hiring", "recruiting", "talent"], many1 (blank table),
          anyCaseOf table ["team", "manager"]])],
      anyCase table "sincerely", stem table " regards" "best",
      anyCaseOf table ["kind regards", "regards"],
      inOrder [anyCase table "thank you", optional (anyCase table " very much"),
        anyCase table " for ", optional (anyCase table "your "),
        anyCaseOf table ["time", "consideration", "reviewing my application"]],
      inOrder [anyCase table "thanks for ", optional (anyCase table "your "),
        anyCaseOf table ["time", "consideration"]],
      anyCaseOf table ["open to discussion", "to be discussed"],
      inOrder [anyCase table "best discussed with ", optional (anyCase table "the "),
        anyCase table "hiring team"]],
    many (.char fun character =>
      ['.', '!', ',', ':', ';'].contains character || table.isBlank character),
    .assert atEnd]

/-! ## Evidence -/

def negatedEvidenceContextRe : Regex :=
  .either
    (inOrder [boundary table,
      anyCaseOf table ["not", "never", "no", "without", "cannot", "can't", "didn't", "doesn't",
        "hasn't", "haven't", "isn't", "wasn't", "weren't", "aren't", "lack", "lacks", "lacked",
        "lacking", "deny", "denies", "denied", "denying", "refute", "refutes", "refuted",
        "refuting"],
      boundary table])
    (inOrder [noHebrewBefore table, exactOf table ["לא", "מעולם לא", "אין", "איני", "אינני"],
      noHebrewAfter table])

/-- `.{0,most}`. -/
def anyText (most : ℕ) : Regex :=
  .repeated (.char fun character => character != '\n') 0 (some most)

def uncertainEvidenceContextRe : Regex :=
  oneOf [
    inOrder [boundary table,
      anyCaseOf table ["allegedly", "purportedly", "reportedly", "supposedly", "unverified",
        "disputed", "possibly", "perhaps", "uncertain", "unclear"],
      boundary table],
    inOrder [boundary table, anyCaseOf table ["may", "might", "could"], anyCase table " have",
      boundary table],
    inOrder [boundary table, anyCaseOf table ["cannot", "can't", "unable to"],
      many1 (blank table), anyCaseOf table ["confirm", "verify", "substantiate"],
      boundary table],
    inOrder [boundary table, anyCase table "it is ",
      anyCaseOf table ["false", "inaccurate", "incorrect", "untrue"], anyCase table " that",
      boundary table],
    inOrder [boundary table, anyCaseOf table ["the", "this", "that"], many1 (blank table),
      anyCaseOf table ["claim", "statement", "assertion", "allegation"], boundary table,
      anyText 160, boundary table,
      anyCaseOf table ["false", "inaccurate", "incorrect", "untrue", "unsubstantiated"],
      boundary table],
    inOrder [noHebrewBefore table,
      exactOf table ["לכאורה", "אולי", "ייתכן", "לא מאומת", "לא ברור"], noHebrewAfter table]]

def prohibitedGeneratedContentRe : Regex :=
  oneOf [
    inOrder [
      oneOf [inOrder [stem table "s" "http", anyCase table "://"], anyCase table "www."],
      many1 (.char fun character => !table.isBlank character)],
    inOrder [boundary table,
      oneOf [anyCaseOf table ["password", "passcode"],
        inOrder [anyCase table "one", member ['-', ' '], anyCase table "time ",
          anyCaseOf table ["code", "password"]],
        anyCase table "login details", stem table "s" "account credential",
        anyCase table "authentication code"],
      boundary table],
    inOrder [boundary table, anyCaseOf table ["send", "share", "provide", "enter", "submit"],
      boundary table, anyText 80, boundary table,
      oneOf [stem table "s" "credential",
        anyCaseOf table ["login", "password", "passcode", "security code"]],
      boundary table],
    inOrder [boundary table, anyCaseOf table ["visit", "open", "follow", "navigate to"],
      boundary table, anyText 100, boundary table,
      oneOf [
        inOrder [anyCase table "external ",
          anyCaseOf table ["link", "site", "address", "administrator"]],
        inOrder [anyCase table "provided ", anyCaseOf table ["link", "address"]],
        anyCaseOf table ["security verification", "validate your account"]],
      boundary table],
    inOrder [boundary table, anyCaseOf table ["verify", "validate"], boundary table, anyText 80,
      boundary table,
      oneOf [anyCaseOf table ["account", "identity", "login"], stem table "s" "credential"],
      boundary table]]

/-! ## Wrappers -/

def englishSubjectlessAccomplishmentRe : Regex :=
  inOrder [.assert atStart,
    oneOf [
      oneOf (["administer", "architect", "author", "deliver", "deploy", "design", "develop",
        "earn", "engineer", "implement", "launch", "maintain", "own", "review", "support",
        "test", "train"].map (stem table "ed")),
      inOrder [anyCase table "analy", anyCaseOf table ["s", "z"], stem table "d" "e"],
      oneOf (["automate", "collaborate", "configure", "complete", "contribute", "create",
        "define", "evaluate", "improve", "integrate", "investigate", "manage", "migrate",
        "operate", "optimize", "provide", "reduce", "scale"].map (stem table "d")),
      anyCaseOf table ["build", "built", "drive", "drove", "lead", "led"],
      stem table "med" "program",
      anyCaseOf table ["study", "studied", "use", "used", "work", "worked", "write", "written",
        "wrote"]],
    boundary table]

def hebrewSubjectlessAccomplishmentRe : Regex :=
  inOrder [.assert atStart,
    exactOf table ["פיתחתי", "בניתי", "יצרתי", "יישמתי", "שיפרתי", "עבדתי", "למדתי", "הובלתי",
      "ניהלתי", "תכננתי", "כתבתי", "תחזקתי", "הטמעתי", "בדקתי", "ניתחתי", "פרסתי", "הגדרתי",
      "מנוסה", "מיומן", "מיומנת", "בקיא", "בקיאה", "זמין", "זמינה"],
    noHebrewAfter table]

/-- The letters of one word, in which a space is a space. -/
def spelled (letters : String) : Regex :=
  Regex.word (· == ·) letters.toList

def possessiveRe : Regex :=
  inOrder [.assert atStart,
    oneOf (["experience", "background", "expertise", "availability", "notice period"].map spelled),
    boundary table]

def predicateRe : Regex :=
  inOrder [.assert atStart,
    oneOf (["experienced", "skilled", "proficient", "familiar", "comfortable", "available",
      "based"].map spelled),
    boundary table]

def possessionRe : Regex :=
  inOrder [.assert atStart,
    .either (.char table.isDigit)
      (inOrder [
        oneOf (["one", "two", "three", "four", "five", "six", "seven", "eight", "nine", "ten",
          "developed", "built", "created", "delivered", "designed", "implemented", "led",
          "managed", "worked", "studied", "experience"].map spelled),
        boundary table])]

end JobApplyAgent.Materials
