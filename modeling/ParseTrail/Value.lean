/-!
# Values of parsers

What parsers yield: characters, texts and numbers, and lists, options and pairs of values. A grammar
may add values of its own as atoms.
-/

namespace ParseTrail

/-- A value that a parser yields, where `α` holds the grammar's own values. -/
inductive Value (α : Type) where
  | unit
  | char (c : Char)
  | text (s : String)
  | number (n : Nat)
  | list (items : List (Value α))
  | absent
  | present (v : Value α)
  | pair (first second : Value α)
  | atom (a : α)

namespace Value

variable {α : Type}

/-- The text that a value adds when it is joined with others. Only characters and texts have one
of their own. -/
def fragment : Value α → String
  | char c => c.toString
  | text s => s
  | _ => "?"

/-- The items of a list joined into one text. -/
def joined : Value α → Value α
  | list items => text (String.join (items.map fragment))
  | v => v

/-- The two values of a pair joined into one text. -/
def concatenated : Value α → Value α
  | pair first second => text (first.fragment ++ second.fragment)
  | v => v

end Value

end ParseTrail
