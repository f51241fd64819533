import ParseTrail.Json
import ParseTrail.Text.Hex

/-!
# Reading JSON text

JSON is read strictly: no blanks but the four, no leading zeros, no control characters in strings,
and nothing after the value. A surrogate pair becomes one code point.
-/

namespace ParseTrail.Json

/-- Text without the blanks it begins with. -/
def skipBlanks : List Char → List Char
  | [] => []
  | c :: cs => if c == ' ' || c == '\t' || c == '\n' || c == '\r' then skipBlanks cs else c :: cs

/-- The digits that a text begins with, at least one, and the rest. -/
def digits? (cs : List Char) : Option (List Char × List Char) :=
  let ds := cs.takeWhile Char.isDigit
  if ds.isEmpty then none else some (ds, cs.dropWhile Char.isDigit)

/-- The digits of a whole number: a zero alone, or a run that begins with none. -/
def whole? : List Char → Option (List Char × List Char)
  | '0' :: cs => some (['0'], cs)
  | cs => digits? cs

/-- A fraction, if the text begins with one. -/
def fraction? : List Char → Option (List Char × List Char)
  | '.' :: cs => (digits? cs).map fun (ds, rest) => ('.' :: ds, rest)
  | cs => some ([], cs)

/-- An exponent, if the text begins with one. -/
def exponent? : List Char → Option (List Char × List Char)
  | [] => some ([], [])
  | e :: cs =>
    if e == 'e' || e == 'E' then
      match cs with
      | '+' :: cs => (digits? cs).map fun (ds, rest) => (e :: '+' :: ds, rest)
      | '-' :: cs => (digits? cs).map fun (ds, rest) => (e :: '-' :: ds, rest)
      | cs => (digits? cs).map fun (ds, rest) => (e :: ds, rest)
    else some ([], e :: cs)

/-- A number. -/
def number? (cs : List Char) : Option (Json × List Char) := do
  let (sign, cs) := match cs with
    | '-' :: cs => (['-'], cs)
    | cs => ([], cs)
  let (whole, cs) ← whole? cs
  let (fraction, cs) ← fraction? cs
  let (exponent, cs) ← exponent? cs
  return (.number (sign ++ whole ++ fraction ++ exponent), cs)

/-- The code that a character stands for after a backslash. -/
def shortEscape? : Char → Option Nat
  | '"' => some 0x22
  | '\\' => some 0x5c
  | '/' => some 0x2f
  | 'b' => some 0x08
  | 'f' => some 0x0c
  | 'n' => some 0x0a
  | 'r' => some 0x0d
  | 't' => some 0x09
  | _ => none

/-- The codes of a string up to its closing quote, escapes resolved one by one. -/
def codes? : List Char → Option (List Nat × List Char)
  | [] => none
  | '"' :: cs => some ([], cs)
  | '\\' :: 'u' :: a :: b :: c :: d :: cs => do
    let code := (((← Text.hexValue? a) * 16 + (← Text.hexValue? b)) * 16 + (← Text.hexValue? c)) * 16
      + (← Text.hexValue? d)
    let (codes, rest) ← codes? cs
    return (code :: codes, rest)
  | '\\' :: c :: cs => do
    let code ← shortEscape? c
    let (codes, rest) ← codes? cs
    return (code :: codes, rest)
  | c :: cs =>
    if c == '\\' || c.toNat < 0x20 then none
    else (codes? cs).map fun (codes, rest) => (c.toNat :: codes, rest)

/-- Joins each leading surrogate with the trailing one that follows it. -/
def joinSurrogates : List Nat → List Nat
  | a :: b :: codes =>
    if 0xd800 ≤ a ∧ a < 0xdc00 ∧ 0xdc00 ≤ b ∧ b < 0xe000 then
      (0x10000 + (a - 0xd800) * 0x400 + (b - 0xdc00)) :: joinSurrogates codes
    else a :: joinSurrogates (b :: codes)
  | codes => codes

/-- A string after its opening quote. -/
def string? (cs : List Char) : Option (List Nat × List Char) :=
  (codes? cs).map fun (codes, rest) => (joinSurrogates codes, rest)

/-- Text without a word it begins with. -/
def word? (word : String) (cs : List Char) : Option (List Char) :=
  if word.toList.isPrefixOf cs then some (cs.drop word.length) else none

mutual

/-- A value and the text after it; nested at most `n` steps deep. -/
def value? : Nat → List Char → Option (Json × List Char)
  | 0, _ => none
  | n + 1, cs =>
    match skipBlanks cs with
    | '"' :: cs => (string? cs).map fun (codes, rest) => (.string codes, rest)
    | '[' :: cs =>
      match skipBlanks cs with
      | ']' :: rest => some (.array [], rest)
      | cs => (items? n cs).map fun (items, rest) => (.array items, rest)
    | '\x7b' :: cs =>
      match skipBlanks cs with
      | '\x7d' :: rest => some (.object [], rest)
      | cs => (fields? n cs).map fun (fields, rest) => (.object fields, rest)
    | 'n' :: cs => (word? "ull" cs).map fun rest => (.null, rest)
    | 't' :: cs => (word? "rue" cs).map fun rest => (.bool true, rest)
    | 'f' :: cs => (word? "alse" cs).map fun rest => (.bool false, rest)
    | cs => number? cs

/-- The items of an array, at least one, up to its closing bracket. -/
def items? : Nat → List Char → Option (List Json × List Char)
  | 0, _ => none
  | n + 1, cs => do
    let (item, cs) ← value? n cs
    match skipBlanks cs with
    | ',' :: cs => do
      let (items, rest) ← items? n cs
      return (item :: items, rest)
    | ']' :: rest => return ([item], rest)
    | _ => none

/-- The fields of an object, at least one, up to its closing brace. -/
def fields? : Nat → List Char → Option (List (List Nat × Json) × List Char)
  | 0, _ => none
  | n + 1, cs => do
    match skipBlanks cs with
    | '"' :: cs => do
      let (key, cs) ← string? cs
      match skipBlanks cs with
      | ':' :: cs => do
        let (field, cs) ← value? n cs
        match skipBlanks cs with
        | ',' :: cs => do
          let (fields, rest) ← fields? n cs
          return ((key, field) :: fields, rest)
        | '\x7d' :: rest => return ([(key, field)], rest)
        | _ => none
      | _ => none
    | _ => none

end

/-- The one value that a text holds. -/
def read? (s : String) : Option Json :=
  match value? (s.length + 1) s.toList with
  | some (value, rest) => if (skipBlanks rest).isEmpty then some value else none
  | none => none

end ParseTrail.Json
