import ParseTrail.Failure
import ParseTrail.Value

/-!
# Parsers

A parser is data: what it matches, and how its attempts appear on the trail. Parsers that need
each other refer to rules by number, and a hand-written procedure is referred to by its key, so a
grammar whose key type is empty has none.
-/

namespace ParseTrail

/-- How the attempts of a parser appear on the trail once they complete. -/
structure Shape where
  /-- The attempt is replaced by those made for it. -/
  dissolve : Bool := false
  /-- The attempt stops the dissolution of the attempts around another. -/
  anchor : Bool := false
  /-- The attempts around it are dissolved, up to the nearest anchor. -/
  dissolveOuter : Bool := false
  /-- The attempts made for it are dropped. -/
  leaf : Bool := false
  deriving DecidableEq, Repr

mutual

/-- A parser: what it matches, under which label, and how it appears on the trail. -/
inductive Parser (κ α : Type) where
  | mk (label : String) (named : Bool) (shape : Shape) (matcher : Matcher κ α)

/-- What a parser matches. -/
inductive Matcher (κ α : Type) where
  /-- A text. -/
  | literal (s : String)
  /-- One character that satisfies a condition. -/
  | satisfy (label : String) (condition : Char → Bool)
  /-- The end of input. -/
  | ending
  /-- Nothing, with a given value. -/
  | succeed (v : Value α)
  /-- Nothing ever. -/
  | refuse (label : String)
  /-- As many times as it goes. -/
  | many (p : Parser κ α)
  /-- As many times as it goes, and at least once. -/
  | many1 (p : Parser κ α)
  /-- Exactly `n` times. -/
  | times (n : Nat) (p : Parser κ α)
  /-- Once or not at all. -/
  | optional (p : Parser κ α)
  /-- As many times as it goes, with a separator between. -/
  | sepBy (p separator : Parser κ α)
  /-- As many times as it goes, with a separator between, and at least once. -/
  | sepBy1 (p separator : Parser κ α)
  /-- The first of several that matches. -/
  | choice (arms : List (Parser κ α))
  /-- The same, but nothing else may be tried if it fails. -/
  | cut (p : Parser κ α)
  /-- One parser between two others. -/
  | between (opening closing p : Parser κ α)
  /-- The same, but nothing is consumed. -/
  | lookahead (p : Parser κ α)
  /-- The first, where the second does not match. -/
  | butNot (p excluded : Parser κ α)
  /-- Two in sequence, for the value of the second. -/
  | andThen (p q : Parser κ α)
  /-- Two in sequence, for the value of the first. -/
  | before (p q : Parser κ α)
  /-- Two in sequence, for both values. -/
  | both (p q : Parser κ α)
  /-- The same, with another value. -/
  | map (f : Value α → Value α) (p : Parser κ α)
  /-- The same, with another value or a reason to reject it. -/
  | tryMap (f : Value α → Except String (Value α)) (p : Parser κ α)
  /-- What a rule matches. -/
  | rule (key : Nat)
  /-- What a hand-written procedure matches. -/
  | procedure (key : κ)

end

namespace Parser

variable {κ α : Type}

/-- The label of a parser in reports. -/
def label : Parser κ α → String
  | mk label _ _ _ => label

/-- Whether the label was given by the author of the grammar. -/
def named : Parser κ α → Bool
  | mk _ named _ _ => named

/-- How the attempts of a parser appear. -/
def shape : Parser κ α → Shape
  | mk _ _ shape _ => shape

/-- What a parser matches. -/
def matcher : Parser κ α → Matcher κ α
  | mk _ _ _ matcher => matcher

/-! ### Labels and shapes -/

/-- Gives a parser a label. A labelled parser appears on the trail, and it is no longer a mere
list of alternatives. -/
def withLabel (label : String) : Parser κ α → Parser κ α
  | mk _ _ shape matcher => mk label true { shape with dissolve := false } matcher

/-- Changes how the attempts of a parser appear. -/
def reshape (f : Shape → Shape) : Parser κ α → Parser κ α
  | mk label named shape matcher => mk label named (f shape) matcher

@[simp]
theorem matcher_withLabel (label : String) (p : Parser κ α) :
    (p.withLabel label).matcher = p.matcher := by
  cases p
  rfl

@[simp]
theorem matcher_reshape (f : Shape → Shape) (p : Parser κ α) :
    (p.reshape f).matcher = p.matcher := by
  cases p
  rfl

/-- Lets the attempts of a parser be replaced by those made for them. -/
def dissolved : Parser κ α → Parser κ α :=
  reshape fun shape => { shape with dissolve := true }

/-- Lets the attempts of a parser stop the dissolution of those around another. -/
def anchored : Parser κ α → Parser κ α :=
  reshape fun shape => { shape with anchor := true }

/-- Lets the attempts of a parser dissolve those around them, up to the nearest anchor. -/
def dissolvingOuter : Parser κ α → Parser κ α :=
  reshape fun shape => { shape with dissolveOuter := true }

/-- Lets the attempts of a parser drop those made for them. -/
def asLeaf : Parser κ α → Parser κ α :=
  reshape fun shape => { shape with leaf := true }

/-- The alternatives of a parser that is a mere list of them. -/
def arms? : Parser κ α → Option (List (Parser κ α))
  | mk _ false _ (.choice arms) => some arms
  | _ => none

/-- A parser in words, under a heading for itself and one for its shape. -/
def describe (heading shapeHeading : String) (p : Parser κ α) : String :=
  let flag (b : Bool) := if b then "true" else "false"
  heading ++ " \x7b label: " ++ Text.quoted p.label ++ ", shape: " ++ shapeHeading
    ++ " \x7b splice: " ++ flag p.shape.dissolve ++ ", anchor: " ++ flag p.shape.anchor
    ++ ", splice_end: " ++ flag p.shape.dissolveOuter ++ ", primitive: " ++ flag p.shape.leaf
    ++ " \x7d \x7d"

end Parser

namespace Matcher

variable {κ α : Type}

/-- The label of a list of alternatives. -/
def armsLabel (arms : List (Parser κ α)) : String :=
  "one of " ++ ", ".intercalate (arms.map (·.label))

/-- The label of what a matcher expects, and of a parser that is given no other. -/
def label : Matcher κ α → String
  | literal s => Text.quoted s
  | satisfy label _ => label
  | ending => "eof"
  | succeed _ => "pure"
  | refuse label => label
  | many p => "many " ++ p.label
  | many1 p => "many1 " ++ p.label
  | times n p => s!"repeat {n} {p.label}"
  | optional p => "optional " ++ p.label
  | sepBy p separator => p.label ++ " separated by " ++ separator.label
  | sepBy1 p separator => p.label ++ " separated by " ++ separator.label
  | choice arms => armsLabel arms
  | cut p => p.label
  | between opening closing p => opening.label ++ " " ++ p.label ++ " " ++ closing.label
  | lookahead p => "peek " ++ p.label
  | butNot p excluded => p.label ++ " but not " ++ excluded.label
  | andThen p q => p.label ++ " then " ++ q.label
  | before p q => p.label ++ " before " ++ q.label
  | both p q => p.label ++ " and " ++ q.label
  | map _ p => p.label
  | tryMap _ p => p.label
  | rule _ => "lazy"
  | procedure _ => unknownLabel

/-- Whether the attempts of a matcher are replaced by those made for them, unless it is labelled.
So it is with what only passes on the parsers it is made of. -/
def dissolves : Matcher κ α → Bool
  | succeed _ | cut _ | andThen _ _ | before _ _ | both _ _ | map _ _ | tryMap _ _ | rule _ => true
  | _ => false

/-- The parser of a matcher. -/
def toParser (m : Matcher κ α) : Parser κ α :=
  .mk m.label false { dissolve := m.dissolves } m

end Matcher

end ParseTrail
