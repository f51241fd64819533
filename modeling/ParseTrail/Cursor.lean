import ParseTrail.Limits
import ParseTrail.Line
import ParseTrail.Source

/-!
# The backtracking cursor

A cursor reads a text or a byte source and can go back to any offset it still keeps. What it
keeps begins at the start of some line; text before that may be released. Everything is pulled
from the source one character at a time.

An operation that may fail for lack of input gives its answer beside the cursor as it stands
afterwards, since a failure leaves it where it got. A misuse of the cursor is a fault.

Offsets are added up without a look at their limit, for the cursor itself and for the error that
tells of malformed bytes. They are right for input that ends before the last offset.
-/

namespace ParseTrail

/-- A place in a text or a byte source, with the text kept around it. -/
structure Cursor where
  /-- The text kept, which may reach past the cursor. -/
  text : List Char := []
  /-- The number of bytes of the kept text before the cursor. -/
  index : Nat := 0
  /-- The offset of the first byte kept. -/
  origin : Nat := 0
  /-- The number of newlines before the text kept. -/
  linesReleased : Nat := 0
  /-- The number of open scopes. Nothing is released while there are any. -/
  scopes : Nat := 0
  /-- The input not yet pulled, unless it has ended. -/
  source : Option Source := none

namespace Cursor

/-- A cursor at the start of a text. -/
def ofText (text : String) : Cursor :=
  { text := text.toList }

/-- A cursor at the start of a byte source whose first byte has offset `origin`. -/
def ofSource (src : Source) (origin : Nat) : Cursor :=
  { source := some src, origin }

/-- A cursor at the start of a byte source that is to be asked for `capacity` bytes at a time. -/
def ofReader (capacity : Nat) (src : Source) : Except Fault Cursor :=
  if bufferLimit < capacity then .error .limitExceeded else .ok (ofSource src 0)

/-! ### Looking at a cursor -/

/-- The offset of the cursor. -/
def position (c : Cursor) : Nat :=
  c.origin + c.index

/-- The number of bytes kept. -/
def buffered (c : Cursor) : Nat :=
  Text.byteLength c.text

/-- The index into the kept text of the last character boundary at or before an offset. -/
def clamp (c : Cursor) (offset : Nat) : Nat :=
  Text.floorBoundary c.text (min (offset - c.origin) c.buffered)

/-- The number of the line that holds an offset, from 1. -/
def lineNumberAt (c : Cursor) (offset : Nat) : Nat :=
  c.linesReleased + Text.newlines (Text.startingBefore c.text (c.clamp offset)) + 1

/-- The number of the line that holds the cursor, from 1. -/
def lineNumber (c : Cursor) : Nat :=
  c.lineNumberAt c.position

/-- The column of the cursor, from 1. -/
def column (c : Cursor) : Except Fault Nat :=
  match Text.slice? c.text (Text.lineBounds c.text c.index).1 c.index with
  | some before => .ok (before.length + 1)
  | none => .error .insideCharacter

/-- The state of a cursor in words, under a heading. -/
def describe (heading : String) (c : Cursor) : String :=
  heading ++ " \x7b pos: " ++ toString c.position ++ ", buffer_start: " ++ toString c.origin
    ++ ", buffered: " ++ toString c.buffered ++ ", streaming: "
    ++ (if c.source.isSome then "true" else "false") ++ " \x7d"

/-! ### Reading -/

/-- The error for bytes that encode no character. -/
def malformedAt (offset : Nat) : SourceError :=
  ⟨.invalidData, s!"stream did not contain valid UTF-8 at offset {offset}"⟩

/-- Pulls one character from the source. Says whether there was one; once there is none, the
source is dropped. -/
def fill (c : Cursor) : Except SourceError Bool × Cursor :=
  match c.source with
  | none => (.ok false, c)
  | some src =>
    match src.nextCharacter with
    | (.character ch, rest) => (.ok true, { c with text := c.text ++ [ch], source := some rest })
    | (.ended, _) => (.ok false, { c with source := none })
    | (.malformed, rest) =>
      (.error (malformedAt (c.origin + c.buffered)), { c with source := some rest })
    | (.error e, rest) => (.error e, { c with source := some rest })

/-- Moves over what the kept text has at the cursor. -/
def advance (c : Cursor) : Cursor :=
  { c with index := c.index + Text.stepLength c.text c.index }

/-- Moves over one character, pulling it if needed. Says whether there was one. -/
def step (c : Cursor) : Except SourceError Bool × Cursor :=
  if c.index = c.buffered then
    match c.fill with
    | (.ok true, d) => (.ok true, d.advance)
    | (answer, d) => (answer, d)
  else (.ok true, c.advance)

/-- Moves over `n` characters, or to the end of input if there are fewer. -/
def skip : Nat → Cursor → Except SourceError Unit × Cursor
  | 0, c => (.ok (), c)
  | n + 1, c =>
    match c.step with
    | (.ok true, d) => skip n d
    | (.ok false, d) => (.ok (), d)
    | (.error e, d) => (.error e, d)

/-- Reads `n` characters, or those left if there are fewer. -/
def read (n : Nat) (c : Cursor) : Except Fault (Except SourceError (List Char) × Cursor) :=
  match c.skip n with
  | (.error e, d) => .ok (.error e, d)
  | (.ok (), d) =>
    match Text.slice? d.text c.index d.index with
    | some chars => .ok (.ok chars, d)
    | none => .error .insideCharacter

/-- Reads one character, if there is one left. -/
def readChar (c : Cursor) : Except Fault (Except SourceError (Option Char) × Cursor) :=
  match c.step with
  | (.error e, d) => .ok (.error e, d)
  | (.ok false, d) => .ok (.ok none, d)
  | (.ok true, d) =>
    match Text.slice? d.text c.index d.index with
    | some chars => .ok (.ok chars.head?, d)
    | none => .error .insideCharacter

/-- Looks at the next `n` characters, or those left if there are fewer. The cursor returns to
where it was unless the source fails. -/
def peek (n : Nat) (c : Cursor) : Except Fault (Except SourceError (List Char) × Cursor) :=
  match c.read n with
  | .error fault => .error fault
  | .ok (.error e, d) => .ok (.error e, d)
  | .ok (.ok chars, d) => .ok (.ok chars, { d with index := c.index })

/-- Whether no input is left. -/
def atEnd (c : Cursor) : Except SourceError Bool × Cursor :=
  if c.index < c.buffered then (.ok false, c)
  else
    match c.fill with
    | (.ok more, d) => (.ok !more, d)
    | (.error e, d) => (.error e, d)

/-- Pulls characters until the source ends or a character satisfies `stop`; at most `n`. -/
def fillUntil (stop : Char → Bool) : Nat → Cursor → Except SourceError Unit × Cursor
  | 0, c => (.ok (), c)
  | n + 1, c =>
    match c.fill with
    | (.ok true, d) => if d.text.getLast?.any stop then (.ok (), d) else fillUntil stop n d
    | (.ok false, d) => (.ok (), d)
    | (.error e, d) => (.error e, d)

/-- A bound on the number of characters that can still be pulled. -/
def pending (c : Cursor) : Nat :=
  match c.source with
  | some src => src.size + 1
  | none => 1

end Cursor

end ParseTrail
