import ParseTrail.Json

/-!
# Writing JSON text

JSON is written compactly, or with one item a line and two columns of indentation. In strings only
the quote, the backslash and control characters are escaped.
-/

namespace ParseTrail.Json

/-- A code point as it stands inside a string. -/
def escape (code : Nat) : List Char :=
  if code = 0x22 then ['\\', '"']
  else if code = 0x5c then ['\\', '\\']
  else if code = 0x08 then ['\\', 'b']
  else if code = 0x09 then ['\\', 't']
  else if code = 0x0a then ['\\', 'n']
  else if code = 0x0c then ['\\', 'f']
  else if code = 0x0d then ['\\', 'r']
  else if code < 0x20 then
    ['\\', 'u', '0', '0', Nat.digitChar (code / 16), Nat.digitChar (code % 16)]
  else [Char.ofNat code]

/-- A string in quotes. -/
def writeString (codes : List Nat) : String :=
  String.ofList ('"' :: codes.flatMap escape ++ ['"'])

mutual

/-- A value without any blanks. -/
def compact : Json → String
  | null => "null"
  | bool b => if b then "true" else "false"
  | number spelling => String.ofList spelling
  | string codes => writeString codes
  | array items => "[" ++ ",".intercalate (compactItems items) ++ "]"
  | object fields => "\x7b" ++ ",".intercalate (compactFields fields) ++ "\x7d"

/-- The items of an array without any blanks. -/
def compactItems : List Json → List String
  | [] => []
  | item :: items => item.compact :: compactItems items

/-- The fields of an object without any blanks. -/
def compactFields : List (List Nat × Json) → List String
  | [] => []
  | (key, field) :: fields => (writeString key ++ ":" ++ field.compact) :: compactFields fields

end

/-- Items one a line between brackets, two columns in from `indent`. -/
def block (opening closing indent : String) (items : List String) : String :=
  if items.isEmpty then opening ++ closing
  else
    let item := "\n" ++ indent ++ "  "
    opening ++ item ++ ("," ++ item).intercalate items ++ "\n" ++ indent ++ closing

mutual

/-- A value with one item a line, where `indent` stands before each line but the first. -/
def pretty (indent : String) : Json → String
  | null => "null"
  | bool b => if b then "true" else "false"
  | number spelling => String.ofList spelling
  | string codes => writeString codes
  | array items => block "[" "]" indent (prettyItems (indent ++ "  ") items)
  | object fields => block "\x7b" "\x7d" indent (prettyFields (indent ++ "  ") fields)

/-- The items of an array, each with one item a line. -/
def prettyItems (indent : String) : List Json → List String
  | [] => []
  | item :: items => item.pretty indent :: prettyItems indent items

/-- The fields of an object, each with one item a line. -/
def prettyFields (indent : String) : List (List Nat × Json) → List String
  | [] => []
  | (key, field) :: fields =>
    (writeString key ++ ": " ++ field.pretty indent) :: prettyFields indent fields

end

end ParseTrail.Json
