import ParseTrail.Span

/-!
# Source lines

One line of input as a report shows it: its number, where it lies, and its text without the
terminator.
-/

namespace ParseTrail

/-- One line of input. -/
structure Line where
  /-- The line's number, from 1. -/
  number : Nat
  /-- The offsets of the line, without its terminator. -/
  span : Span
  /-- The text of the line, without its terminator. -/
  text : String
  deriving DecidableEq, Repr, Inhabited

namespace Line

/-- The column of an offset on the line, from 1. -/
def columnOf (line : Line) (offset : Nat) : Except Fault Nat :=
  let column := Text.column line.text.toList line.span.start offset + 1
  if column < offsetLimit then .ok column else .error .limitExceeded

/-- The span drawn as an underline below the line. -/
def underline (line : Line) (span : Span) : Except Fault String :=
  String.ofList <$> span.underline line.span line.text.toList

/-- The line with its number. -/
def render (line : Line) : String :=
  s!"line {line.number}: {line.text}"

end Line

end ParseTrail
