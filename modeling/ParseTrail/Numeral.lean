import ParseTrail.Limits

/-!
# Decimal numerals

The reading of unsigned decimal numerals. A plus sign may stand before the digits. The first thing
wrong from the left is what is reported.
-/

namespace ParseTrail

/-- Why a text is no numeral. -/
inductive NumeralError where
  | empty
  | invalidDigit
  | tooLarge
  deriving DecidableEq, Repr

namespace NumeralError

/-- The error in words. -/
def message : NumeralError → String
  | empty => "cannot parse integer from empty string"
  | invalidDigit => "invalid digit found in string"
  | tooLarge => "number too large to fit in target type"

end NumeralError

namespace Numeral

/-- The number that a digit adds at the end of the digits of `n`. -/
def append (n : Nat) (digit : Char) : Nat :=
  n * 10 + (digit.toNat - '0'.toNat)

/-- The number that decimal digits denote. -/
def value (digits : List Char) : Nat :=
  digits.foldl append 0

/-- The number that a text denotes which continues the digits of `n`. -/
def readAfter (n : Nat) : List Char → Except NumeralError Nat
  | [] => .ok n
  | c :: cs =>
    if c.isDigit then
      if append n c < numberLimit then readAfter (append n c) cs else .error .tooLarge
    else .error .invalidDigit

/-- The number that a numeral denotes. -/
def read : List Char → Except NumeralError Nat
  | [] => .error .empty
  | ['+'] => .error .invalidDigit
  | '+' :: cs => readAfter 0 cs
  | cs => readAfter 0 cs

end Numeral

end ParseTrail
