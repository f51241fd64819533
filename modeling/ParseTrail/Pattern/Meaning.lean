import ParseTrail.Pattern.Reader
import ParseTrail.Pattern.Size

/-!
# What written patterns mean

A written pattern has a meaning once its flags are known. Flags hold from where they are switched
to the end of the group. Without the characters of all scripts, a pattern is refused that could
match a part of the bytes of a character.
-/

namespace ParseTrail.Pattern

open Text

/-! ### Sets -/

/-- The characters of a class with an escape of one letter. -/
def Shorthand.codes : Shorthand → CodeSet
  | digit => Category.olderCodes .decimalNumber
  | space => whiteSpaceCodes
  | word => wordCodes

/-- The ASCII characters of a class with an escape of one letter. -/
def Shorthand.asciiCodes : Shorthand → CodeSet
  | digit => .range 0x30 0x39
  | space => ⟨[(0x9, 0xd), (0x20, 0x20)]⟩
  | word => asciiWordCodes

/-- What an operation makes of two sets. -/
def SetOperation.apply : SetOperation → CodeSet → CodeSet → CodeSet
  | intersection, s, t => s.intersection t
  | difference, s, t => s.difference t
  | symmetricDifference, s, t => s.symmetricDifference t

/-- The characters of a written set. Case is ignored before a set is negated and before an
operation is done. -/
def SetTree.codes? (flags : Flags) : SetTree → Option CodeSet
  | nothing => some .empty
  | range first last =>
    if flags.scripts || last.toNat < 0x80 then some (.range first.toNat last.toNat) else none
  | shorthand kind negated =>
    flags.negate? negated (if flags.scripts then kind.codes else kind.asciiCodes)
  | named s negated => flags.negate? negated (flags.fold s)
  | property s negated => if flags.scripts then flags.negate? negated (flags.fold s) else none
  | bracket negated s => do flags.negate? negated (flags.fold (← s.codes? flags))
  | union s t => return (← s.codes? flags).union (← t.codes? flags)
  | operation op s t =>
    return op.apply (flags.fold (← s.codes? flags)) (flags.fold (← t.codes? flags))

/-! ### Places -/

/-- The condition that an anchor states. -/
def Anchor.place (flags : Flags) : Anchor → Place
  | start => if flags.lines then .lineStart flags.returns else .textStart
  | stop => if flags.lines then .lineEnd flags.returns else .textEnd
  | textStart => .textStart
  | textEnd => .textEnd
  | word edge => .word edge !flags.scripts

/-! ### Patterns -/

/-- What the dot does not stand for. -/
def Flags.notDot (flags : Flags) : CodeSet :=
  if flags.dotAll then .empty
  else if flags.returns then .ofCodes [0xa, 0xd]
  else .single 0xa

/-- The flags at the start of a group. -/
def GroupKind.flags (flags : Flags) : GroupKind → Flags
  | captured _ => flags
  | flagged switches => flags.switch switches

/-- A group of a pattern. -/
def GroupKind.enclose (p : Pattern) : GroupKind → Pattern
  | captured _ => .captured p
  | flagged _ => p

/-- The alternatives that a written pattern means, and the flags after it. -/
def Tree.meanings? (flags : Flags) : Tree → Option (List Pattern × Flags)
  | nothing => some ([.empty], flags)
  | switches changes => some ([.empty], flags.switch changes)
  | char c byte =>
    if byte && !flags.scripts && 0x80 ≤ c.toNat then none
    else some ([.chars (flags.fold (.single c.toNat))], flags)
  | dot => if flags.scripts then some ([.chars flags.notDot.complement], flags) else none
  | anchor a => some ([.place (a.place flags)], flags)
  | set s => do return ([.chars (← s.codes? flags)], flags)
  | repetition least most? t => do
    let (patterns, flags) ← t.meanings? flags
    return ([(anyOf patterns).repeated least most?], flags)
  | group kind t => do
    let (patterns, _) ← t.meanings? (kind.flags flags)
    return ([kind.enclose (anyOf patterns)], flags)
  | seq t u => do
    let (first, flags) ← t.meanings? flags
    let (second, flags) ← u.meanings? flags
    return ([(anyOf first).andThen (anyOf second)], flags)
  | either t u => do
    let (first, flags) ← t.meanings? flags
    let (second, flags) ← u.meanings? flags
    return (first ++ second, flags)

/-- The pattern that a text spells, unless its automaton would be too large. -/
def read? (s : String) : Option Pattern := do
  let (patterns, _) ← (← Tree.read? s).meanings? {}
  let p := anyOf patterns
  if p.isSmall then some p else none

end ParseTrail.Pattern
