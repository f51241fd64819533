/-!
# Sets of code points

A set of code points is a list of inclusive ranges in increasing order, no two of which touch.
The operations keep that order, so that a set has one list of ranges and membership can stop
early.
-/

namespace ParseTrail.Text

/-- The last code point. -/
def lastCode : Nat := 0x10ffff

/-- Whether a code point lies in one of the ranges, which stand in increasing order. -/
def inRanges : List (Nat × Nat) → Nat → Bool
  | [], _ => false
  | (first, last) :: rest, code => first ≤ code && (code ≤ last || inRanges rest code)

/-- A set of code points. -/
structure CodeSet where
  /-- Its ranges in increasing order, no two of which touch. -/
  ranges : List (Nat × Nat)
  deriving DecidableEq, Repr

namespace CodeSet

/-- Whether a set holds a code point. -/
def contains (s : CodeSet) (code : Nat) : Bool :=
  inRanges s.ranges code

/-! ### Making sets -/

/-- The set of nothing. -/
def empty : CodeSet :=
  ⟨[]⟩

/-- The code points from the first to the last. -/
def range (first last : Nat) : CodeSet :=
  ⟨[(first, last)]⟩

/-- The set of one code point. -/
def single (code : Nat) : CodeSet :=
  range code code

/-- The set of all code points. -/
def all : CodeSet :=
  range 0 lastCode

/-- A range and those that follow it, which begin no earlier, with ranges that touch made one. -/
def joinFrom (first last : Nat) : List (Nat × Nat) → List (Nat × Nat)
  | [] => [(first, last)]
  | (a, b) :: rest =>
    if a ≤ last + 1 then joinFrom first (max last b) rest else (first, last) :: joinFrom a b rest

/-- The set of ranges that stand in the order of their first code points. -/
def ofOrdered : List (Nat × Nat) → CodeSet
  | [] => empty
  | (a, b) :: rest => ⟨joinFrom a b rest⟩

/-- The set of several ranges. -/
def ofRanges (ranges : List (Nat × Nat)) : CodeSet :=
  ofOrdered (ranges.mergeSort fun x y => x.1 ≤ y.1)

/-- The set of several code points. -/
def ofCodes (codes : List Nat) : CodeSet :=
  ofRanges (codes.map fun code => (code, code))

/-! ### Operations -/

/-- What is in either of two sets. -/
def union (s t : CodeSet) : CodeSet :=
  ofOrdered (s.ranges.merge t.ranges fun x y => x.1 ≤ y.1)

/-- What is in any of several sets. -/
def unionAll (sets : List CodeSet) : CodeSet :=
  ofRanges (sets.flatMap ranges)

/-- The gaps between ranges from a code point on. -/
def gapsFrom (start : Nat) : List (Nat × Nat) → List (Nat × Nat)
  | [] => if start ≤ lastCode then [(start, lastCode)] else []
  | (first, last) :: rest =>
    if start < first then (start, first - 1) :: gapsFrom (last + 1) rest
    else gapsFrom (last + 1) rest

/-- What is not in a set. -/
def complement (s : CodeSet) : CodeSet :=
  ⟨gapsFrom 0 s.ranges⟩

/-- What is in both of two sets. -/
def intersection (s t : CodeSet) : CodeSet :=
  (s.complement.union t.complement).complement

/-- What is in the first set but not in the second. -/
def difference (s t : CodeSet) : CodeSet :=
  (s.complement.union t).complement

/-- What is in one of two sets but not in both. -/
def symmetricDifference (s t : CodeSet) : CodeSet :=
  (s.union t).difference (s.intersection t)

/-! ### Tests -/

/-- Whether a set holds one code point alone. -/
def isSingle (s : CodeSet) : Bool :=
  match s.ranges with
  | [(first, last)] => first == last
  | _ => false

/-- Whether a set holds code points below 128 alone. -/
def isAscii (s : CodeSet) : Bool :=
  s.ranges.all fun r => r.2 < 0x80

end CodeSet

end ParseTrail.Text
