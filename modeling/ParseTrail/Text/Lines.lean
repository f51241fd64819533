import ParseTrail.Text.Offset

/-!
# Lines and columns of a text

Lines end at a newline, and a carriage return right before it belongs to the terminator. Lines
are numbered from 1 by the newlines before them. A column counts characters, and past the end
of the text it counts one per byte, so that the place just after the last character has one.
-/

namespace ParseTrail.Text

/-- The number of newlines in a text. -/
def newlines (cs : List Char) : Nat :=
  cs.count '\n'

/-- The bounds of the line that holds offset `n`, on the way through the text: the line began
at `start`, the rest of the text is at `offset`, and `afterReturn` says whether a carriage return
stands right before it. -/
def lineBoundsFrom (start offset : Nat) (afterReturn : Bool) : List Char → Nat → Nat × Nat
  | [], _ => (start, offset)
  | c :: cs, n =>
    if c = '\n' then
      if n ≤ offset then (start, if afterReturn then offset - 1 else offset)
      else lineBoundsFrom (offset + 1) (offset + 1) false cs n
    else lineBoundsFrom start (offset + c.utf8Size) (c == '\r') cs n

/-- The bounds of the line that holds offset `n`, without its terminator. A newline belongs to
the line it ends, an offset past the end to the last line, and a carriage return at the very end
of the text to its line. -/
def lineBounds (cs : List Char) (n : Nat) : Nat × Nat :=
  lineBoundsFrom 0 0 false cs n

/-- The number of characters between the start of a line and `offset`, where `cs` begins with
the line and lies at `start`. An offset inside a character counts bytes, and so does what lies
past the end of `cs`. -/
def column (cs : List Char) (start offset : Nat) : Nat :=
  let n := offset - start
  if n ≤ byteLength cs then
    match takeBytes? n cs with
    | some before => before.length
    | none => n
  else cs.length + (n - byteLength cs)

/-- The line number and the column of an offset, both from 1; an offset past the end counts as
the end. -/
def lineColumn (cs : List Char) (offset : Nat) : Nat × Nat :=
  let n := min offset (byteLength cs)
  let start := (lineBounds cs n).1
  (newlines (startingBefore cs start) + 1,
    column ((dropBytes? start cs).getD []) start n + 1)

end ParseTrail.Text
