import ParseTrail.Cursor

/-!
# Scopes and lines of a cursor

A scope is open while something may still have to return to where it began. Outside all scopes
the text before the present line can be released. The line around an offset is read to its end
before it is shown. Its number and its offsets are not compared with their limit, as those of the
cursor are not.
-/

namespace ParseTrail.Cursor

/-- Opens a scope, in which nothing is released. -/
def openScope (c : Cursor) : Cursor :=
  { c with scopes := c.scopes + 1 }

/-- Closes the scope opened last. -/
def closeScope (c : Cursor) : Cursor :=
  { c with scopes := c.scopes - 1 }

/-- Releases the text before the line that holds the cursor, unless a scope is open. -/
def release (c : Cursor) : Cursor :=
  if c.scopes > 0 then c
  else
    let start := (Text.lineBounds c.text c.index).1
    { c with
      text := (Text.dropBytes? start c.text).getD []
      index := c.index - start
      origin := c.origin + start
      linesReleased := c.linesReleased + Text.newlines (Text.startingBefore c.text start) }

/-- Pulls the rest of the line that holds the byte with index `n` of the text kept. -/
def completeLine (n : Nat) (c : Cursor) : Except SourceError Unit × Cursor :=
  if ((Text.dropBytes? n c.text).getD []).contains '\n' then (.ok (), c)
  else c.fillUntil (· == '\n') c.pending

/-- The line that holds the byte with index `n` of the text kept, as the line of an offset. -/
def lineAround (n offset : Nat) (c : Cursor) : Line :=
  let (first, last) := Text.lineBounds c.text n
  { number := c.lineNumberAt offset
    span := Span.of (c.origin + first) (c.origin + last)
    text := String.ofList ((Text.slice? c.text first last).getD []) }

/-- The line that holds an offset, or the nearest one kept. Its rest is pulled if needed. -/
def lineAt (offset : Nat) (c : Cursor) : Except SourceError Line × Cursor :=
  match c.completeLine (c.clamp offset) with
  | (.error e, d) => (.error e, d)
  | (.ok (), d) => (.ok (d.lineAround (c.clamp offset) offset), d)

end ParseTrail.Cursor
