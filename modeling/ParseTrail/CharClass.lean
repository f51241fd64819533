/-!
# Character classes

Named classes of characters, their spellings in patterns, and the names that failure reports use
for them. All of them are classes of ASCII characters, of all other characters too where a class
is stated by what it excludes, or of every character.
-/

namespace ParseTrail

/-- A named class of characters. -/
inductive CharClass where
  | digit | nonDigit
  | lower | upper | letter | letterOrDigit
  | word | nonWord
  | hexDigit
  | space | nonSpace
  | blank
  | punctuation
  | any
  deriving DecidableEq, Repr

namespace CharClass

/-- Whether `c` is an ASCII punctuation mark or symbol. -/
def isPunctuation (c : Char) : Bool :=
  ('!' ≤ c && c ≤ '/') || (':' ≤ c && c ≤ '@') || ('[' ≤ c && c ≤ '\x60') || ('\x7b' ≤ c && c ≤ '~')

/-- Whether `c` is an ASCII space, tab, line feed, carriage return, vertical tab or form feed. -/
def isSpace (c : Char) : Bool :=
  c == ' ' || c == '\t' || c == '\n' || c == '\r' || c == '\x0b' || c == '\x0c'

/-- Whether `c` is an ASCII letter, an ASCII digit or the underscore. -/
def isWord (c : Char) : Bool :=
  c.isAlphanum || c == '_'

/-- Whether `c` is an ASCII hexadecimal digit of either case. -/
def isHexDigit (c : Char) : Bool :=
  c.isDigit || ('a' ≤ c && c ≤ 'f') || ('A' ≤ c && c ≤ 'F')

/-- Whether a class holds a character. -/
def contains : CharClass → Char → Bool
  | digit, c => c.isDigit
  | nonDigit, c => !c.isDigit
  | lower, c => c.isLower
  | upper, c => c.isUpper
  | letter, c => c.isAlpha
  | letterOrDigit, c => c.isAlphanum
  | word, c => isWord c
  | nonWord, c => !isWord c
  | hexDigit, c => isHexDigit c
  | space, c => isSpace c
  | nonSpace, c => !isSpace c
  | blank, c => c == ' ' || c == '\t'
  | punctuation, c => isPunctuation c
  | any, _ => true

/-- The name of a class in failure reports. -/
def name : CharClass → String
  | digit => "digit"
  | nonDigit => "non-digit"
  | lower => "lowercase letter"
  | upper => "uppercase letter"
  | letter => "letter"
  | letterOrDigit => "letter or digit"
  | word => "word character"
  | nonWord => "non-word character"
  | hexDigit => "hex digit"
  | space => "whitespace"
  | nonSpace => "non-whitespace"
  | blank => "blank"
  | punctuation => "punctuation"
  | any => "any char"

/-- The class that a pattern spells, if it is one of the known spellings. -/
def ofPattern? : String → Option CharClass
  | "." => some any
  | "[0-9]" | "\\d" => some digit
  | "\\D" => some nonDigit
  | "[a-z]" => some lower
  | "[A-Z]" => some upper
  | "[a-zA-Z]" | "[A-Za-z]" => some letter
  | "[a-zA-Z0-9]" | "[0-9a-zA-Z]" => some letterOrDigit
  | "\\w" | "[a-zA-Z0-9_]" | "[0-9a-zA-Z_]" => some word
  | "\\W" => some nonWord
  | "[0-9a-fA-F]" | "[0-9A-Fa-f]" => some hexDigit
  | "\\s" => some space
  | "\\S" => some nonSpace
  | "[ \t]" | "\\h" => some blank
  | "[[:punct:]]" => some punctuation
  | _ => none

end CharClass

end ParseTrail
