import ParseTrail.Numeral

/-!
# JSON values

A number keeps its spelling. A string keeps its code points, among which one that was read may have
lone surrogates: such a string is well-formed JSON, but no text.
-/

namespace ParseTrail

/-- A JSON value. -/
inductive Json where
  | null
  | bool (b : Bool)
  /-- A number as it is spelt. -/
  | number (spelling : List Char)
  /-- A string by its code points. -/
  | string (codes : List Nat)
  | array (items : List Json)
  | object (fields : List (List Nat × Json))

namespace Json

/-- The code points of a text. -/
def codesOf (s : String) : List Nat :=
  s.toList.map (·.toNat)

/-- The JSON string of a text. -/
def ofText (s : String) : Json :=
  .string (codesOf s)

/-- The JSON number of a natural number. -/
def ofNat (n : Nat) : Json :=
  .number (Nat.toDigits 10 n)

/-- The character with a code point. -/
def charOf? (code : Nat) : Option Char :=
  if h : code.isValidChar then some (Char.ofNatAux code h) else none

/-- The text with given code points, if none of them is a surrogate. -/
def textOf? (codes : List Nat) : Option String :=
  (codes.mapM charOf?).map String.ofList

/-- The text that a JSON string holds. -/
def text? : Json → Option String
  | .string codes => textOf? codes
  | _ => none

/-- The natural number below `limit` that a JSON number spells out in digits alone. -/
def nat? (limit : Nat) : Json → Option Nat
  | .number spelling =>
    if spelling.all Char.isDigit then
      if Numeral.value spelling < limit then some (Numeral.value spelling) else none
    else none
  | _ => none

end Json

end ParseTrail
