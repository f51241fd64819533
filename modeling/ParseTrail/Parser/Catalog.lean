import ParseTrail.CharClass
import ParseTrail.Numeral
import ParseTrail.Parser
import ParseTrail.Pattern.Meaning

/-!
# The catalog of parsers

The parsers that grammars are made of: characters, texts and numbers, and the ways of putting
parsers together.
-/

namespace ParseTrail.Parser

variable {κ α : Type}

/-! ### Characters -/

/-- A text. -/
def literal (s : String) : Parser κ α :=
  (Matcher.literal s).toParser

/-- One character that satisfies a condition. -/
def charWhere (label : String) (condition : Char → Bool) : Parser κ α :=
  (Matcher.satisfy label condition).toParser

/-- Any one character. -/
def anyChar : Parser κ α :=
  charWhere "any char" fun _ => true

/-- One character of a text. -/
def charIn (set : String) : Parser κ α :=
  charWhere ("char in " ++ Text.quoted set) set.toList.contains

/-- One character of a class. -/
def charOf (cls : CharClass) : Parser κ α :=
  charWhere cls.name cls.contains

/-- One hexadecimal digit. -/
def hexDigit : Parser κ α :=
  charOf .hexDigit

/-- The label of a parser of one character that a pattern matches. -/
def patternLabel (pattern : String) : String :=
  "char matching /" ++ pattern ++ "/"

/-- One character in which a pattern matches something. -/
def charMatching? (pattern : String) : Option (Parser κ α) :=
  (Pattern.read? pattern).map fun p => charWhere (patternLabel pattern) p.isMatch

/-- One character that a class in the notation of patterns holds; any pattern that matches all of
the character will do. -/
def charClass? (pattern : String) : Option (Parser κ α) :=
  match CharClass.ofPattern? pattern with
  | some cls => some (charOf cls)
  | none =>
    (Pattern.read? ("^(?:" ++ pattern ++ ")$")).map fun p =>
      charWhere (patternLabel pattern) p.isMatch

/-- The end of input. -/
def ending : Parser κ α :=
  Matcher.ending.toParser

/-- Nothing, with a given value. -/
def succeed (v : Value α) : Parser κ α :=
  (Matcher.succeed v).toParser

/-- Nothing ever. -/
def refuse (label : String) : Parser κ α :=
  (Matcher.refuse label).toParser

/-! ### Repetition -/

/-- A parser as many times as it goes. -/
def many (p : Parser κ α) : Parser κ α :=
  (Matcher.many p).toParser

/-- A parser as many times as it goes, and at least once. -/
def many1 (p : Parser κ α) : Parser κ α :=
  (Matcher.many1 p).toParser

/-- A parser exactly `n` times. -/
def times (n : Nat) (p : Parser κ α) : Parser κ α :=
  (Matcher.times n p).toParser

/-- A parser once or not at all. -/
def optional (p : Parser κ α) : Parser κ α :=
  (Matcher.optional p).toParser

/-- A parser as many times as it goes, with a separator between. -/
def sepBy (p separator : Parser κ α) : Parser κ α :=
  (Matcher.sepBy p separator).toParser

/-- A parser as many times as it goes, with a separator between, and at least once. -/
def sepBy1 (p separator : Parser κ α) : Parser κ α :=
  (Matcher.sepBy1 p separator).toParser

/-! ### Alternatives -/

/-- The first of several parsers that matches. -/
def choice (arms : List (Parser κ α)) : Parser κ α :=
  (Matcher.choice arms).toParser

/-- One parser or else another. Lists of alternatives become one list. -/
def or (p q : Parser κ α) : Parser κ α :=
  choice (p.arms?.getD [p] ++ q.arms?.getD [q])

/-- A parser after whose failure nothing else may be tried. -/
def cut (p : Parser κ α) : Parser κ α :=
  (Matcher.cut p).toParser

/-! ### Sequence and lookahead -/

/-- Two parsers in sequence, for the value of the second. -/
def andThen (p q : Parser κ α) : Parser κ α :=
  (Matcher.andThen p q).toParser

/-- Two parsers in sequence, for the value of the first. -/
def before (p q : Parser κ α) : Parser κ α :=
  (Matcher.before p q).toParser

/-- Two parsers in sequence, for both values. -/
def both (p q : Parser κ α) : Parser κ α :=
  (Matcher.both p q).toParser

/-- One parser between two others. -/
def between (opening closing p : Parser κ α) : Parser κ α :=
  (Matcher.between opening closing p).toParser

/-- A parser that consumes nothing. -/
def lookahead (p : Parser κ α) : Parser κ α :=
  (Matcher.lookahead p).toParser

/-- A parser where another does not match. -/
def butNot (p excluded : Parser κ α) : Parser κ α :=
  (Matcher.butNot p excluded).toParser

/-! ### Values -/

/-- A parser with another value. -/
def map (f : Value α → Value α) (p : Parser κ α) : Parser κ α :=
  (Matcher.map f p).toParser

/-- A parser with a given value. -/
def replacing (v : Value α) (p : Parser κ α) : Parser κ α :=
  p.map fun _ => v

/-- A parser with another value or a reason to reject it. -/
def tryMap (f : Value α → Except String (Value α)) (p : Parser κ α) : Parser κ α :=
  (Matcher.tryMap f p).toParser

/-- A parser of a list, for its items joined into one text. -/
def join (p : Parser κ α) : Parser κ α :=
  p.map Value.joined

/-- Two parsers of texts in sequence, for both texts as one. -/
def concat (p q : Parser κ α) : Parser κ α :=
  (p.both q).map Value.concatenated

/-! ### Texts and numbers -/

/-- Decimal digits, at least one. -/
def digits : Parser κ α :=
  ((charOf .digit).many1.join.withLabel "digits").asLeaf

/-- The number that a text denotes. -/
def readNumber : Value α → Except String (Value α)
  | .text s =>
    match Numeral.read s.toList with
    | .ok n => .ok (.number n)
    | .error e => .error e.message
  | _ => .error "not text"

/-- A decimal number up to the largest 64-bit number. -/
def decimal : Parser κ α :=
  ((digits.tryMap readNumber).withLabel "number").asLeaf

/-- Blanks, if there are any. -/
def whitespace : Parser κ α :=
  ((charOf .space).many.join.withLabel "whitespace").asLeaf

/-- Blanks, at least one. -/
def whitespace1 : Parser κ α :=
  ((charOf .space).many1.join.withLabel "whitespace").asLeaf

/-- A parser with blanks around it. -/
def spaced (p : Parser κ α) : Parser κ α :=
  (between whitespace whitespace p).withLabel ("spaced " ++ p.label)

/-! ### Rules and procedures -/

/-- What a rule matches. -/
def rule (key : Nat) : Parser κ α :=
  (Matcher.rule key).toParser

/-- What the rule being defined matches, for use within its own definition. -/
def self (key : Nat) : Parser κ α :=
  .mk "recursive" false { dissolve := true } (.rule key)

/-- What a rule matches whose definition is `body`, under its label. -/
def recursive (key : Nat) (body : Parser κ α) : Parser κ α :=
  .mk body.label false { dissolve := true } (.rule key)

/-- What a hand-written procedure matches. -/
def procedure (label? : Option String) (key : κ) : Parser κ α :=
  let m : Matcher κ α := .procedure key
  .mk (label?.getD m.label) false {} m

end ParseTrail.Parser
