import ParseTrail.Limits
import ParseTrail.Pattern.Flags
import ParseTrail.Pattern.Place

/-!
# The written form of patterns

What a pattern says before its flags are taken into account. The parts of a written pattern nest,
and a pattern whose parts nest too deep is refused, as is one that gives two groups one name.
-/

namespace ParseTrail.Pattern

/-- A class of characters that has an escape of one letter. -/
inductive Shorthand where
  | digit | space | word
  deriving DecidableEq, Repr

/-- An operation on two sets. -/
inductive SetOperation where
  | intersection | difference | symmetricDifference
  deriving DecidableEq, Repr

/-- A set of characters as it is written. -/
inductive SetTree where
  /-- No characters. -/
  | nothing
  /-- The characters from the first to the last. -/
  | range (first last : Char)
  /-- A class with an escape of one letter, or all other characters. -/
  | shorthand (kind : Shorthand) (negated : Bool)
  /-- A class of ASCII characters that is given by name, or all other characters. -/
  | named (s : Text.CodeSet) (negated : Bool)
  /-- The characters with a property, or all others. -/
  | property (s : Text.CodeSet) (negated : Bool)
  /-- A set in brackets, or all other characters. -/
  | bracket (negated : Bool) (s : SetTree)
  /-- The characters of either of two sets. -/
  | union (s t : SetTree)
  /-- An operation on two sets. -/
  | operation (op : SetOperation) (s t : SetTree)
  deriving DecidableEq, Repr

/-- A condition on a place as it is written. -/
inductive Anchor where
  /-- The sign for a start, which is that of a line or of the text. -/
  | start
  /-- The sign for an end, which is that of a line or of the text. -/
  | stop
  /-- The start of the text. -/
  | textStart
  /-- The end of the text. -/
  | textEnd
  /-- An edge of a word. -/
  | word (edge : WordEdge)
  deriving DecidableEq, Repr

/-- What a group does besides holding its parts together. -/
inductive GroupKind where
  /-- It keeps its match, which may have a name. -/
  | captured (name? : Option String)
  /-- It switches flags for its parts. -/
  | flagged (switches : Switches)
  deriving DecidableEq, Repr

/-- A pattern as it is written. -/
inductive Tree where
  /-- Nothing at all. -/
  | nothing
  /-- Flags to switch from here on. -/
  | switches (switches : Switches)
  /-- One character; `byte` says that it is given as the number of a byte. -/
  | char (c : Char) (byte : Bool)
  /-- Any character, apart from ends of lines. -/
  | dot
  /-- A condition on the place. -/
  | anchor (a : Anchor)
  /-- One character of a set. -/
  | set (s : SetTree)
  /-- A pattern at least `least` times and at most `most?` times. -/
  | repetition (least : Nat) (most? : Option Nat) (t : Tree)
  /-- A group. -/
  | group (kind : GroupKind) (t : Tree)
  /-- One pattern and then another. -/
  | seq (t u : Tree)
  /-- Either of two patterns. -/
  | either (t u : Tree)
  deriving DecidableEq, Repr

namespace SetTree

/-- The set of one character. -/
def single (c : Char) : SetTree :=
  range c c

/-- The union of sets that are given last first. -/
def ofItems : List SetTree → SetTree
  | [] => nothing
  | [s] => s
  | s :: rest => union (ofItems rest) s

/-- How deep the parts of a set nest. A union of several is one level, which `inUnion` says has
been counted. -/
def depth : Bool → SetTree → Nat
  | inUnion, union s t => max (s.depth true) (t.depth true) + if inUnion then 0 else 1
  | _, bracket _ s => s.depth false + 1
  | _, operation _ s t => max (s.depth false) (t.depth false) + 1
  | _, _ => 0

end SetTree

namespace Tree

/-- The sequence of patterns that are given last first. -/
def ofItems : List Tree → Tree
  | [] => nothing
  | [t] => t
  | t :: rest => seq (ofItems rest) t

/-- Where a part of a pattern stands, as far as the count of levels goes. -/
inductive Level where
  /-- On a level that nothing has counted. -/
  | other
  /-- In a sequence that has been counted. -/
  | inSeq
  /-- Among alternatives that have been counted. -/
  | inEither
  deriving DecidableEq, Repr

/-- How deep the parts of a pattern nest. A sequence of several is one level, and so are several
alternatives. -/
def depth : Level → Tree → Nat
  | level, seq t u =>
    max (t.depth .inSeq) (u.depth .inSeq) + if level = .inSeq then 0 else 1
  | level, either t u =>
    max (t.depth .inEither) (u.depth .inEither) + if level = .inEither then 0 else 1
  | _, repetition _ _ t => t.depth .other + 1
  | _, group _ t => t.depth .other + 1
  | _, set s => s.depth false
  | _, _ => 0

/-- The names of the groups, first to last. -/
def names : Tree → List String
  | group (.captured (some name)) t => name :: t.names
  | group _ t | repetition _ _ t => t.names
  | seq t u | either t u => t.names ++ u.names
  | _ => []

/-- Whether a pattern does not nest too deep and gives no name twice. -/
def isAllowed (t : Tree) : Bool :=
  t.depth .other ≤ nestLimit && decide t.names.Nodup

end Tree

end ParseTrail.Pattern
