import ParseTrail.Text.WordCharacter

/-!
# Places in a text

Conditions on a place of a text that a pattern can state without taking a character. They depend
on the character before the place and the one after it, if there are such.
-/

namespace ParseTrail.Pattern

/-- How a place stands to the words around it. -/
inductive WordEdge where
  /-- A word begins or ends here. -/
  | boundary
  /-- No word begins or ends here. -/
  | noBoundary
  /-- A word begins here. -/
  | start
  /-- A word ends here. -/
  | stop
  /-- No character of a word comes before. -/
  | openBefore
  /-- No character of a word comes after. -/
  | openAfter
  deriving DecidableEq, Repr

/-- A condition on a place. -/
inductive Place where
  /-- The start of the text. -/
  | textStart
  /-- The end of the text. -/
  | textEnd
  /-- The start of a line; with `returns`, carriage returns end lines too. -/
  | lineStart (returns : Bool)
  /-- The end of a line; with `returns`, carriage returns end lines too. -/
  | lineEnd (returns : Bool)
  /-- An edge of words, which with `ascii` have ASCII characters alone. -/
  | word (edge : WordEdge) (ascii : Bool)
  deriving DecidableEq, Repr

/-- Whether an edge lies between what is or is not a character of a word. -/
def WordEdge.holds (before after : Bool) : WordEdge → Bool
  | boundary => before != after
  | noBoundary => before == after
  | start => !before && after
  | stop => before && !after
  | openBefore => !before
  | openAfter => !after

/-- Whether a character belongs to words. -/
def isWordCharacter (ascii : Bool) (c : Char) : Bool :=
  (if ascii then Text.asciiWordCodes else Text.wordCodes).contains c.toNat

/-- Whether a place between the given characters meets a condition. Between a carriage return and
a line feed no line ends. -/
def Place.holds (before? after? : Option Char) : Place → Bool
  | textStart => before?.isNone
  | textEnd => after?.isNone
  | lineStart returns =>
    before?.all fun c => c == '\n' || (returns && c == '\r' && after? != some '\n')
  | lineEnd returns =>
    after?.all fun c => if returns then c == '\r' || (c == '\n' && before? != some '\r') else c == '\n'
  | word edge ascii =>
    edge.holds (before?.any (isWordCharacter ascii)) (after?.any (isWordCharacter ascii))

end ParseTrail.Pattern
