import ParseTrail.Pattern
import ParseTrail.Limits
import ParseTrail.Text.Utf8.Ranges

/-!
# The size of patterns

A pattern counts as too large if its automaton over bytes would take more than ten mebibytes. There
are two automata, one that reads forward and one that reads backward, and neither may be too large.
A state takes 32 bytes, each byte range that leads on takes 8, and each alternative takes 4.

A repetition has a copy of the repeated pattern for every time that it may happen, which is what
makes patterns large.
-/

namespace ParseTrail.Pattern

open Text Text.Utf8

/-- In which direction an automaton reads. -/
inductive Direction where
  | forward | backward
  deriving DecidableEq, Repr

/-! ### Sets of characters -/

/-- The number of bytes in the sequence of a code point. -/
def sequenceBytes (code : Nat) : Nat :=
  if code < 0x80 then 1 else if code < 0x800 then 2 else if code < 0x10000 then 3 else 4

/-- Boxes by their first byte ranges: what follows each of them. -/
def branches (boxes : List Box) : List (List Box) :=
  (boxes.splitBy fun a b => a.head? == b.head?).map (·.map List.tail)

/-- The states of a tree that reads boxes of at most `n` byte ranges, each as what it still has to
read. -/
def treeStates : Nat → List Box → List (List Box)
  | 0, _ => []
  | n + 1, boxes =>
    if boxes.all List.isEmpty then [] else boxes :: (branches boxes).flatMap (treeStates n)

/-- The size of what reads boxes forward: equal states are one, and all of them lead to one end. -/
def forwardBytes (boxes : List Box) : Nat :=
  ((treeStates 4 boxes).eraseDups.map fun state => 32 + 8 * (branches state).length).foldl (· + ·) 32

/-- The number of byte ranges that two boxes begin with in common. -/
def sharedRanges : Box → Box → Nat
  | x :: a, y :: b => if x = y then sharedRanges a b + 1 else 0
  | _, _ => 0

/-- The number of states that read boxes backward, each box after the one before it. -/
def backwardStates : Box → List Box → Nat
  | _, [] => 0
  | before, box :: rest => box.length - sharedRanges before box + backwardStates box rest

/-- The size of what reads boxes backward: they share what they begin with. -/
def backwardBytes (boxes : List Box) : Nat :=
  64 + 4 * boxes.length + 32 * backwardStates [] boxes

/-- The size of what reads one character of a set. -/
def setBytes (direction : Direction) (s : CodeSet) : Nat :=
  if s.isSingle then 32 * (s.ranges.map fun r => sequenceBytes r.1).foldl (· + ·) 0
  else if s.isAscii then 64 + 8 * s.ranges.length
  else match direction with
    | .forward => forwardBytes (boxes s)
    | .backward => backwardBytes (boxes s)

/-! ### Patterns -/

/-- The size of `p` repeated without end, given the size of one copy. -/
def unboundedBytes (p : Pattern) (least copy : Nat) : Nat :=
  if least = 0 then if p.takesNothing then 112 + copy else 40 + copy else least * copy + 40

/-- The size of a pattern repeated a bounded number of times, given the size of one copy. -/
def boundedBytes (least most copy : Nat) : Nat :=
  if least = 0 ∧ most = 1 then 72 + copy
  else if least = most then if least = 0 then 32 else least * copy
  else (if least = 0 then 32 else least * copy) + 32 + (most - least) * (40 + copy)

/-- The size of a pattern; `nested` says that it is the last of several alternatives. -/
def bytes (direction : Direction) : Bool → Pattern → Nat
  | _, empty => 32
  | _, chars s => setBytes direction s
  | _, place _ => 32
  | _, captured p => p.bytes direction false + if direction = .forward then 64 else 0
  | _, seq p q => p.bytes direction false + q.bytes direction false
  | nested, either p q =>
    let last := match q with
      | either _ _ => 0
      | _ => 4
    (if nested then 0 else 64) + 4 + p.bytes direction false + last + q.bytes direction true
  | _, repetition least most? p =>
    let copy := p.bytes direction false
    match most? with
    | none => unboundedBytes p least copy
    | some most => boundedBytes least most copy

/-- Whether a pattern can only match where the text starts, or where it ends for an automaton that
reads backward. -/
def isAnchored (direction : Direction) : Pattern → Bool
  | place .textStart => direction == .forward
  | place .textEnd => direction == .backward
  | captured p => p.isAnchored direction
  | seq p q =>
    match direction with
    | .forward => p.isAnchored direction || (p.takesOnlyNothing && q.isAnchored direction)
    | .backward => q.isAnchored direction || (q.takesOnlyNothing && p.isAnchored direction)
  | either p q => p.isAnchored direction && q.isAnchored direction
  | repetition least _ p => 0 < least && p.isAnchored direction
  | _ => false

/-- The size of the automaton of a pattern: what skips to the start of a match, the pattern itself,
what keeps the match, and the end. -/
def automatonBytes (direction : Direction) (p : Pattern) : Nat :=
  (if p.isAnchored direction then 32 else 112) + p.bytes direction false
    + (if direction = .forward then 64 else 0) + 32

/-- Whether neither automaton of a pattern is too large. -/
def isSmall (p : Pattern) : Bool :=
  p.automatonBytes .forward ≤ automatonLimit && p.automatonBytes .backward ≤ automatonLimit

end ParseTrail.Pattern
