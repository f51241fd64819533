import ParseTrail.Pattern.Place

/-!
# Patterns tried on single characters

A pattern is a regular expression. It is only ever tried on a text of one character, which has
two places: before the character and after it. What a pattern can do there is which of the two
places it can lead to from which, and going back is not possible.

The functions that put patterns together keep them small: a sequence leaves out what is nothing,
alternatives that are single characters become one set, and a repetition of what takes no
character happens at most once.
-/

namespace ParseTrail

/-- A regular expression. -/
inductive Pattern where
  /-- Nothing, at any place. -/
  | empty
  /-- One character of a set. -/
  | chars (s : Text.CodeSet)
  /-- A condition on the place. -/
  | place (p : Pattern.Place)
  /-- A pattern whose match is kept. -/
  | captured (p : Pattern)
  /-- One pattern and then another. -/
  | seq (p q : Pattern)
  /-- Either of two patterns. -/
  | either (p q : Pattern)
  /-- At least `least` times the same pattern, and at most `most?` times. -/
  | repetition (least : Nat) (most? : Option Nat) (p : Pattern)
  deriving DecidableEq, Repr

namespace Pattern

/-! ### What a pattern matches -/

/-- Which places of a text of one character lead to which. -/
structure Moves where
  /-- Whether the place before the character leads to itself. -/
  stayBefore : Bool
  /-- Whether the place before the character leads to the place after it. -/
  cross : Bool
  /-- Whether the place after the character leads to itself. -/
  stayAfter : Bool
  deriving DecidableEq, Repr

namespace Moves

/-- Staying at either place. -/
def stay : Moves := ⟨true, false, true⟩

/-- One move and then another. -/
def andThen (a b : Moves) : Moves :=
  ⟨a.stayBefore && b.stayBefore, (a.stayBefore && b.cross) || (a.cross && b.stayAfter),
    a.stayAfter && b.stayAfter⟩

/-- Either of two moves. -/
def or (a b : Moves) : Moves :=
  ⟨a.stayBefore || b.stayBefore, a.cross || b.cross, a.stayAfter || b.stayAfter⟩

/-- The same move `n` times. -/
def times (a : Moves) : Nat → Moves
  | 0 => stay
  | n + 1 => a.andThen (a.times n)

end Moves

/-- What a pattern can do on the text that consists of `c`. More than two further repetitions lead
nowhere new. -/
def moves (c : Char) : Pattern → Moves
  | empty => .stay
  | chars s => ⟨false, s.contains c.toNat, false⟩
  | place p => ⟨p.holds none (some c), false, p.holds (some c) none⟩
  | captured p => p.moves c
  | seq p q => (p.moves c).andThen (q.moves c)
  | either p q => (p.moves c).or (q.moves c)
  | repetition least most? p =>
    let once := p.moves c
    let further := match most? with
      | some most => min 2 (most - least)
      | none => 2
    (once.times (min 3 least)).andThen ((Moves.stay.or once).times further)

/-- Whether a pattern matches some part of the text that consists of `c`. -/
def isMatch (p : Pattern) (c : Char) : Bool :=
  let m := p.moves c
  m.stayBefore || m.cross || m.stayAfter

/-! ### How much text a pattern takes -/

/-- Whether a pattern can match without taking a character. -/
def takesNothing : Pattern → Bool
  | empty | place _ => true
  | chars _ => false
  | captured p => p.takesNothing
  | seq p q => p.takesNothing && q.takesNothing
  | either p q => p.takesNothing || q.takesNothing
  | repetition least _ p => least == 0 || p.takesNothing

/-- Whether a pattern cannot match and take a character. -/
def takesOnlyNothing : Pattern → Bool
  | empty | place _ => true
  | chars _ => false
  | captured p => p.takesOnlyNothing
  | seq p q | either p q => p.takesOnlyNothing && q.takesOnlyNothing
  | repetition _ most? p => most? == some 0 || p.takesOnlyNothing

/-! ### Putting patterns together -/

/-- One pattern and then another, where nothing is left out. -/
def andThen : Pattern → Pattern → Pattern
  | empty, q => q
  | p, empty => p
  | p, q => seq p q

/-- The alternatives that a pattern offers. -/
def arms : Pattern → List Pattern
  | either p q => p.arms ++ q.arms
  | p => [p]

/-- The set of a pattern that takes one character of a set and no more. -/
def set? : Pattern → Option Text.CodeSet
  | chars s => some s
  | _ => none

/-- The set that alternatives amount to, if all of them are single characters or all of them are
sets of several. -/
def joinedSet? (arms : List Pattern) : Option Text.CodeSet := do
  let sets ← arms.mapM set?
  if sets.all (·.isSingle) || sets.all (!·.isSingle) then some (.unionAll sets) else none

/-- One of several patterns, of which there is at least one. -/
def ofArms : List Pattern → Pattern
  | [] => empty
  | [p] => p
  | p :: q :: rest => either p (ofArms (q :: rest))

/-- One of several patterns, whose own alternatives become alternatives of the whole. -/
def anyOf (patterns : List Pattern) : Pattern :=
  match patterns with
  | [p] => p
  | _ =>
    let all := patterns.flatMap arms
    match joinedSet? all with
    | some s => chars s
    | none => ofArms all

/-- A pattern at least `least` times and at most `most?` times. -/
def repeated (least : Nat) (most? : Option Nat) (p : Pattern) : Pattern :=
  let (least, most?) :=
    if p.takesOnlyNothing then (min least 1, some ((most?.map (min 1)).getD 1)) else (least, most?)
  if most? = some 0 then empty
  else if least = 1 ∧ most? = some 1 then p
  else repetition least most? p

end Pattern

end ParseTrail
