import TableLoom.Text.Pattern

/-!
What a scalar without quotes stands for. Reading resolves a scalar by these patterns, and writing puts
quotes around a text that would resolve to something else.
-/

namespace TableLoom.Yaml

open Text (Pattern)

/-- The kinds of scalars. -/
inductive Kind where
  | text | null | bool | int | float | moment | bytes
  /-- The key whose value is merged into the map around it. -/
  | merge
  /-- The mark of a default value, which no data corresponds to. -/
  | value
  deriving DecidableEq

namespace Kind

open Text.Pattern

def trueWords : List String := ["yes", "Yes", "YES", "true", "True", "TRUE", "on", "On", "ON"]
def falseWords : List String := ["no", "No", "NO", "false", "False", "FALSE", "off", "Off", "OFF"]
def nullWords : List String := ["", "~", "null", "Null", "NULL"]

def sign : Pattern := optional (oneOf "+-")
def digitRun : Pattern := .star (.char fun c => c.isDigit || c == '_')

def number : Pattern := .seq digit digitRun

/-- Digits behind colons, in base sixty. -/
def sixtieths : Pattern :=
  many1 (all [one ':', optional (oneOf "012345"), digit])

def exponent : Pattern :=
  optional (all [oneOf "eE", oneOf "+-", many1 digit])

def infinity : Pattern := words ["inf", "Inf", "INF"]

/-- A number with a point. -/
def floatPattern : Pattern :=
  .alt (all [sign, number, one '.', digitRun, exponent])
    (.alt (all [one '.', number, exponent])
      (.alt (all [sign, number, sixtieths, one '.', digitRun])
        (.alt (all [sign, one '.', infinity]) (.seq (one '.') (words ["nan", "NaN", "NAN"])))))

/-- A whole number: in base two, eight, ten, sixteen or sixty. -/
def intPattern : Pattern :=
  let nonzero := Pattern.seq (oneOf "123456789") digitRun
  .seq sign <|
    .alt (.seq (word "0b") (many1 (oneOf "01_")))
      (.alt (.seq (one '0') (many1 (oneOf "01234567_")))
        (.alt (one '0')
          (.alt nonzero
            (.alt (.seq (word "0x") (many1 (oneOf "0123456789abcdefABCDEF_")))
              (.seq nonzero sixtieths)))))

/-- A day, or a day and a time of day with an optional zone. -/
def momentPattern : Pattern :=
  let upToTwo := Pattern.seq digit (optional digit)
  let two := times 2 digit
  let blanks := Pattern.star (oneOf " \t")
  let zone := Pattern.alt (one 'Z')
    (all [oneOf "+-", upToTwo, optional (.seq (one ':') two)])
  .alt (all [times 4 digit, one '-', two, one '-', two])
    (all [times 4 digit, one '-', upToTwo, one '-', upToTwo,
      .alt (oneOf "Tt") (many1 (oneOf " \t")), upToTwo, one ':', two, one ':', two,
      optional (.seq (one '.') (.star digit)), optional (.seq blanks zone)])

def of (s : String) : Kind :=
  let cs := s.toList
  if nullWords.contains s then .null
  else if trueWords.contains s || falseWords.contains s then .bool
  else if intPattern.test cs then .int
  else if floatPattern.test cs then .float
  else if momentPattern.test cs then .moment
  else if s == "<<" then .merge
  else if s == "=" then .value
  else .text

end Kind

end TableLoom.Yaml
