import ParseTrail.Cursor.Lines
import ParseTrail.Cursor.Move

/-!
# Requests to a cursor

Every operation on a cursor as a value, so that a procedure that works with a cursor is data, and
statements about all sequences of operations can be made by cases.
-/

namespace ParseTrail.Cursor

/-- An operation on a cursor. -/
inductive Request where
  | read (n : Nat)
  | readChar
  | peek (n : Nat)
  | atEnd
  | restore (n : Nat)
  | restoreTo (offset : Nat)
  | seek (target : SeekTarget)
  | release
  | column
  | lineAt (offset : Nat)
  /-- Looks at the cursor without changing it. -/
  | inspect

/-- What an operation answers. -/
abbrev Request.Reply : Request → Type
  | read _ => Except SourceError (List Char)
  | readChar => Except SourceError (Option Char)
  | peek _ => Except SourceError (List Char)
  | atEnd => Except SourceError Bool
  | restore _ => Unit
  | restoreTo _ => Unit
  | seek _ => Except SourceError Nat
  | release => Unit
  | column => Nat
  | lineAt _ => Except SourceError Line
  | inspect => Cursor

/-- Performs an operation. -/
def perform (c : Cursor) : (r : Request) → Except Fault (r.Reply × Cursor)
  | .read n => c.read n
  | .readChar => c.readChar
  | .peek n => c.peek n
  | .atEnd => .ok c.atEnd
  | .restore n => (c.restore n).map fun d => ((), d)
  | .restoreTo offset => (c.restoreTo offset).map fun d => ((), d)
  | .seek target => .ok (c.seek target)
  | .release => .ok ((), c.release)
  | .column => c.column.map fun n => (n, c)
  | .lineAt offset => .ok (c.lineAt offset)
  | .inspect => .ok (c, c)

end ParseTrail.Cursor
